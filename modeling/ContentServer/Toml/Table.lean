import ContentServer.Toml.Value

/-!
# Tables of a settings document

The entries of a document grow line by line.  A key is a path of one or more names, and it leads
through the tables that are already there.  Tables that are missing on the way are made.

* A *header* names the table that the next lines go to.  On its way it can pass through every
  table that was not written in braces, and through the last table of a row of tables.  The table
  that it names must be new, or have been made on the way of an earlier header.
* A *header in double brackets* adds a new table to the row that it names, which may be new.
* An *entry* goes to the table of the last header.  If its key is dotted, it passes through tables
  that no header has named, and it ends in a table that dotted keys have made.

No key is set twice.  Whatever breaks one of these rules makes the whole document invalid.
-/

namespace ContentServer.Toml

/-- What a path of names is part of. -/
inductive Route where
  /-- A header. -/
  | header
  /-- The dotted key of an entry. -/
  | dotted
deriving DecidableEq, Repr

namespace Route

/-- How a table comes about that is made on the way. -/
def origin : Route → Origin
  | .header => .implied
  | .dotted => .dotted

/-- Whether a way can pass through a table. -/
def canPass : Route → Origin → Bool
  | .header, origin => origin != .braces
  | .dotted, origin => origin == .dotted || origin == .implied

end Route

namespace Entries

/-- The entries with a value for a key.  The value takes the place of the old one, if there is
one. -/
def put (key : String) (value : Value) : Entries → Entries
  | [] => [(key, value)]
  | (k, v) :: rest => if k = key then (key, value) :: rest else (k, v) :: put key value rest

/-- The entries with a change made to the table at the end of a path.  The change is told how that
table came about. -/
def change (route : Route) (f : Origin → Entries → Option Entries) :
    List String → Origin → Entries → Option Entries
  | [], origin, entries => f origin entries
  | name :: names, _, entries =>
    match entries.lookup name with
    | none =>
      (change route f names route.origin []).map fun inner =>
        put name (.table route.origin inner) entries
    | some (.table origin inner) =>
      if route.canPass origin then
        (change route f names origin inner).map fun inner => put name (.table origin inner) entries
      else none
    | some (.rows tables) =>
      match tables.getLast? with
      | some (.table origin inner) =>
        (change route f names origin inner).map fun inner =>
          put name (.rows (tables.dropLast ++ [.table origin inner])) entries
      | _ => none
    | some _ => none
termination_by structural path => path

/-- The entries with a new entry. -/
def add (key : String) (value : Value) (entries : Entries) : Option Entries :=
  match entries.lookup key with
  | none => some (put key value entries)
  | some _ => none

/-- The entries with a new entry under a dotted key, whose last part is `key`. -/
def insert (path : List String) (key : String) (value : Value) (entries : Entries) :
    Option Entries :=
  change .dotted
    (fun origin inner => if path.isEmpty || origin = .dotted then add key value inner else none)
    path .header entries

/-- The entries with the table that a header names. -/
def openTable (path : List String) (key : String) (entries : Entries) : Option Entries :=
  change .header
    (fun _ inner =>
      match inner.lookup key with
      | none => some (put key (.table .header []) inner)
      | some (.table .implied old) => some (put key (.table .header old) inner)
      | some _ => none)
    path .header entries

/-- The entries with one more table in the row that a header in double brackets names. -/
def openRow (path : List String) (key : String) (entries : Entries) : Option Entries :=
  change .header
    (fun _ inner =>
      match inner.lookup key with
      | none => some (put key (.rows [.table .header []]) inner)
      | some (.rows tables) => some (put key (.rows (tables ++ [.table .header []])) inner)
      | some _ => none)
    path .header entries

/-- The entries with a new entry in the table of the last header, which `table` leads to. -/
def insertAt (table path : List String) (key : String) (value : Value) (entries : Entries) :
    Option Entries :=
  change .header (fun _ inner => insert path key value inner) table .header entries

/-! ## Laws of `put` -/

/-- A key has the value that was put there. -/
theorem lookup_put_self (key : String) (value : Value) (entries : Entries) :
    (put key value entries).lookup key = some value := by
  induction entries with
  | nil => simp [put]
  | cons e rest ih =>
    obtain ⟨k, v⟩ := e
    by_cases h : k = key
    · simp [put, h]
    · have hne : (key == k) = false := by simpa using fun he => h he.symm
      simp [put, h, List.lookup_cons, hne, ih]

/-- Putting a value somewhere changes no other key. -/
theorem lookup_put_of_ne {key other : String} (h : other ≠ key) (value : Value)
    (entries : Entries) : (put key value entries).lookup other = entries.lookup other := by
  have hne : (other == key) = false := beq_eq_false_iff_ne.mpr h
  induction entries with
  | nil => simp [put, List.lookup_cons, hne]
  | cons e rest ih =>
    obtain ⟨k, v⟩ := e
    by_cases hk : k = key
    · subst hk
      simp [put, List.lookup_cons, hne]
    · simp only [put, if_neg hk, List.lookup_cons, ih]

end Entries

end ContentServer.Toml
