/-!
# Values of a settings document

A settings document is written in TOML.  It is a table: a row of entries, each with a key and a
value.  A value is a text, a number, a truth value, a date, an array or a table.

Which floating point number or which date is meant makes no difference to the settings of a
server, so the values of these two kinds are not told apart.

A table in a document can come about in four ways (`Origin`), and they differ in what may still be
added to it.  That is why each table carries its origin.
-/

namespace ContentServer.Toml

/-- How a table came about. -/
inductive Origin where
  /-- It was written in braces.  Nothing can be added to it. -/
  | braces
  /-- It was named by a header, or it is the whole document. -/
  | header
  /-- It stands on the way that a dotted key took. -/
  | dotted
  /-- It stands on the way to a table that a header named. -/
  | implied
deriving DecidableEq, Repr

/-- What can stand for a key. -/
inductive Value where
  /-- A text in quotes. -/
  | text (s : String)
  /-- A whole number. -/
  | integer (n : Int)
  /-- A floating point number. -/
  | float
  /-- `true` or `false`. -/
  | boolean (b : Bool)
  /-- A date, a time, or both. -/
  | date
  /-- Values in brackets. -/
  | array (items : List Value)
  /-- A table. -/
  | table (origin : Origin) (entries : List (String × Value))
  /-- The tables that headers in double brackets made. -/
  | rows (tables : List Value)
deriving Repr, Inhabited

/-- The entries of a table, the first one first. -/
abbrev Entries := List (String × Value)

namespace Value

/-- The text that a value is. -/
def text? : Value → Option String
  | .text s => some s
  | _ => none

/-- The truth value that a value is. -/
def boolean? : Value → Option Bool
  | .boolean b => some b
  | _ => none

/-- The number below `bound` that a value is. -/
def natural? (bound : Nat) : Value → Option Nat
  | .integer n => if 0 ≤ n && n < bound then some n.toNat else none
  | _ => none

/-- The values in an array, or the tables in a row of tables. -/
def items? : Value → Option (List Value)
  | .array items => some items
  | .rows tables => some tables
  | _ => none

/-- The fields of a record with the given names.  A table has them under their names, and an array
has them in their places.  A date is a record with no fields. -/
def record? (names : List String) : Value → Option (String → Option Value)
  | .table _ entries => some fun name => entries.lookup name
  | .array items => some fun name => (names.zip items).lookup name
  | .rows tables => some fun name => (names.zip tables).lookup name
  | .date => some fun _ => none
  | _ => none

end Value

end ContentServer.Toml
