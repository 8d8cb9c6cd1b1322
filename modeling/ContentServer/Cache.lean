import ContentServer.Clock

/-!
# The cache of rendered documents

The cache holds a fixed number of texts under names, each until it expires.  An entry is *live*
before its expiry and dead from then on.

* Entries stand in the order in which they were stored.
* A dead entry stays until something runs into it: `get` removes the dead entry that it was asked
  for, `size` removes all of them, and so does `set` when there is no room.
* `set` refreshes a live entry of the same name in place.  Otherwise it needs room, and if the
  cache is full of live entries it stores nothing.  A live entry is never driven out.

Every operation takes the time at which it happens and gives its answer with the cache that it
leaves.

A capacity is any number, and so is a time.  So the model leaves out two breakdowns: a cache for
which there is no memory cannot be made, and a text cannot be stored if the clock cannot show its
expiry.  A life is at most `maxLife`, so the latter only happens in the last ten years before
`Clock.limit`.
-/

namespace ContentServer

namespace Cache

/-- A stored text. -/
structure Entry where
  /-- The name under which it is found. -/
  key : String
  /-- The text. -/
  value : String
  /-- The time from which it is dead. -/
  expiry : Time
deriving DecidableEq, Repr

/-- Whether an entry can still be served. -/
def Entry.isLive (now : Time) (e : Entry) : Bool := now < e.expiry

/-- The longest life of an entry in seconds, ten years of 365 days. -/
def maxLife : Nat := 315360000

end Cache

/-- Texts under names, each for a limited time. -/
structure Cache where
  /-- The number of entries that fit in. -/
  capacity : Nat
  /-- The entries, the oldest first. -/
  entries : List Cache.Entry := []
deriving DecidableEq, Repr

namespace Cache

/-- The entry of a name, live or dead. -/
def find? (c : Cache) (key : String) : Option Entry := c.entries.find? fun e => e.key == key

/-- The cache without the entry of a name. -/
def erase (c : Cache) (key : String) : Cache :=
  { c with entries := c.entries.eraseP fun e => e.key == key }

/-- The cache without its dead entries. -/
def sweep (now : Time) (c : Cache) : Cache :=
  { c with entries := c.entries.filter (Entry.isLive now) }

/-- The cache with another entry in the place of the one of the same name. -/
def refresh (c : Cache) (entry : Entry) : Cache :=
  { c with entries := c.entries.map fun e => if e.key == entry.key then entry else e }

/-- Whether there is room for one more entry. -/
def hasRoom (c : Cache) : Bool := c.entries.length < c.capacity

/-- The cache with one more entry at its end. -/
def push (c : Cache) (entry : Entry) : Cache := { c with entries := c.entries ++ [entry] }

/-- Stores an entry of a name that the cache does not have, if there is room for it once the dead
entries are out of the way. -/
def store (now : Time) (entry : Entry) (c : Cache) : Bool × Cache :=
  if c.hasRoom then (true, c.push entry)
  else
    let c := c.sweep now
    if c.hasRoom then (true, c.push entry) else (false, c)

/-- The entry of a text that is stored now for some seconds. -/
def entry (now : Time) (key value : String) (life : Nat) : Entry :=
  ⟨key, value, now + Clock.seconds (min life maxLife)⟩

/-- Stores a text for some seconds.  The answer is whether it was stored. -/
def set (now : Time) (key value : String) (life : Nat) (c : Cache) : Bool × Cache :=
  let new := entry now key value life
  match c.find? key with
  | none => c.store now new
  | some e => if e.isLive now then (true, c.refresh new) else (c.erase key).store now new

/-- The text of a live entry. -/
def get (now : Time) (key : String) (c : Cache) : Option String × Cache :=
  match c.find? key with
  | none => (none, c)
  | some e => if e.isLive now then (some e.value, c) else (none, c.erase key)

/-- Removes an entry, live or dead.  The answer is whether there was one. -/
def remove (key : String) (c : Cache) : Bool × Cache :=
  match c.find? key with
  | none => (false, c)
  | some _ => (true, c.erase key)

/-- The number of live entries. -/
def size (now : Time) (c : Cache) : Nat × Cache :=
  let c := c.sweep now
  (c.entries.length, c)

/-- Whether there is no live entry. -/
def isEmpty (now : Time) (c : Cache) : Bool × Cache :=
  let (n, c) := c.size now
  (n == 0, c)

/-! ## What a cache holds -/

/-- What is found under a name is an entry of that name. -/
theorem of_find?_eq_some {c : Cache} {key : String} {e : Entry} (h : c.find? key = some e) :
    e ∈ c.entries ∧ e.key = key :=
  ⟨List.mem_of_find?_eq_some h,
    by simpa using List.find?_some (show c.entries.find? (fun e => e.key == key) = some e from h)⟩

theorem erase_sublist (c : Cache) (key : String) : (c.erase key).entries.Sublist c.entries :=
  List.eraseP_sublist

/-- A text that is served is that of a live entry of its name. -/
theorem of_get_eq_some {now : Time} {key value : String} {c : Cache}
    (h : (c.get now key).1 = some value) :
    ∃ e ∈ c.entries, e.key = key ∧ e.value = value ∧ now < e.expiry := by
  rw [get] at h
  split at h
  · cases h
  · next e he =>
    obtain ⟨hmem, hkey⟩ := of_find?_eq_some he
    split at h
    · next hlive => exact ⟨e, hmem, hkey, Option.some.inj h, of_decide_eq_true hlive⟩
    · cases h

/-- A look-up brings no entry in. -/
theorem mem_of_mem_get {now : Time} {key : String} {c : Cache} {e : Entry}
    (h : e ∈ (c.get now key).2.entries) : e ∈ c.entries := by
  rw [get] at h
  split at h
  · exact h
  · split at h
    · exact h
    · exact (erase_sublist c key).subset h

theorem mem_of_mem_store {now : Time} {new e : Entry} {c : Cache}
    (h : e ∈ (c.store now new).2.entries) : e ∈ c.entries ∨ e = new := by
  rw [store] at h
  split at h
  · simpa [push] using h
  · have hsweep : ∀ e ∈ (c.sweep now).entries, e ∈ c.entries := fun e he =>
      (List.mem_filter.mp he).1
    dsimp only at h
    split at h
    · rcases List.mem_append.mp h with he | he
      · exact Or.inl (hsweep e he)
      · exact Or.inr (List.mem_singleton.mp he)
    · exact Or.inl (hsweep e h)

/-- Storing a text brings in its own entry and no other. -/
theorem mem_of_mem_set {now : Time} {key value : String} {life : Nat} {c : Cache} {e : Entry}
    (h : e ∈ (c.set now key value life).2.entries) :
    e ∈ c.entries ∨ e = entry now key value life := by
  rw [set] at h
  split at h
  · exact mem_of_mem_store h
  · split at h
    · obtain ⟨e', he', heq⟩ := List.mem_map.mp h
      split at heq
      · exact Or.inr heq.symm
      · exact Or.inl (heq ▸ he')
    · rcases mem_of_mem_store h with he | he
      · exact Or.inl ((erase_sublist c key).subset he)
      · exact Or.inr he

/-! ## Runs of operations -/

/-- A use of the cache. -/
inductive Operation where
  | set (key value : String) (life : Nat)
  | get (key : String)
  | remove (key : String)
  | size
  | isEmpty
  | capacity
deriving DecidableEq, Repr

/-- What a use of the cache gives. -/
inductive Answer where
  | flag (b : Bool)
  | text (value : Option String)
  | count (n : Nat)
deriving DecidableEq, Repr

/-- The answer to one use of the cache and the cache that it leaves. -/
def perform (now : Time) : Operation → Cache → Answer × Cache
  | .set key value life, c => let (b, c) := c.set now key value life; (.flag b, c)
  | .get key, c => let (v, c) := c.get now key; (.text v, c)
  | .remove key, c => let (b, c) := c.remove key; (.flag b, c)
  | .size, c => let (n, c) := c.size now; (.count n, c)
  | .isEmpty, c => let (b, c) := c.isEmpty now; (.flag b, c)
  | .capacity, c => (.count c.capacity, c)

example : ((⟨1, []⟩ : Cache).set 0 "a" "x" 5).1 = true := by decide
/-- A full cache refreshes what it has and refuses the rest. -/
example :
    let c : Cache := ((⟨1, []⟩ : Cache).set 0 "a" "x" 5).2
    (c.set 1 "a" "y" 5).1 = true ∧ (c.set 1 "b" "y" 5).1 = false ∧
      (c.set (Clock.seconds 5) "b" "y" 5).1 = true := by decide

end Cache

end ContentServer
