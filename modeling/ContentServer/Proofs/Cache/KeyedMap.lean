import ContentServer.Cache
import Mathlib.Data.Finmap

/-!
# The cache is a map

The entries of a cache stand in a row, and dead ones stay in it until something runs into them.
None of that can be seen from outside.  What can be seen is a map that binds a name to at most one
text with an expiry.

* A binding is *live* before its expiry.  A dead one counts for nothing.
* `get` gives the text of a live binding.
* `set` is accepted if its name is live or fewer bindings than the capacity are live.  It then
  binds the name, and otherwise it leaves the map as it is.
* `remove` takes a binding out.  It finds a live one, and it finds nothing where nothing is bound.
  A dead one may be out of the cache already, so the answer for it is left open.
* `size` counts the live bindings.

`Bindings.Allows` holds of the answers that a use may give, and `Bindings.after` is the map that it
leaves.  A cache and a map belong together, `Refines`, when all entries are bound and all live
bindings have their entry.  Every use keeps that (`perform_refines`), and so does time
(`Refines.later`).  `run_follows_map` draws the conclusion for runs of any length.
-/

namespace ContentServer.Cache

/-! ## The map -/

/-- What a name is bound to. -/
structure Binding where
  /-- The text. -/
  value : String
  /-- The time from which it is dead. -/
  expiry : Time
deriving DecidableEq, Repr

/-- Names with at most one binding each. -/
abbrev Bindings := Finmap fun _ : String => Binding

namespace Bindings

/-- Whether a name has a live binding. -/
def isLive (now : Time) (m : Bindings) (key : String) : Bool :=
  (m.lookup key).any fun b => now < b.expiry

/-- The text of a live binding. -/
def text? (now : Time) (m : Bindings) (key : String) : Option String :=
  ((m.lookup key).filter fun b => now < b.expiry).map Binding.value

/-- The number of live bindings. -/
def liveCount (now : Time) (m : Bindings) : Nat := (m.keys.filter fun key => m.isLive now key).card

/-- Whether a name can be bound. -/
def accepts (capacity : Nat) (now : Time) (m : Bindings) (key : String) : Bool :=
  m.isLive now key || m.liveCount now < capacity

/-- The map after a use of the cache. -/
def after (capacity : Nat) (now : Time) (m : Bindings) : Operation → Bindings
  | .set key value life =>
    if m.accepts capacity now key then
      m.insert key ⟨value, now + Clock.seconds (min life 315360000)⟩
    else m
  | .remove key => m.erase key
  | .get _ | .size | .isEmpty | .capacity => m

/-- What a use of the cache may answer. -/
def Allows (capacity : Nat) (now : Time) (m : Bindings) : Operation → Answer → Prop
  | .set key _ _, answer => answer = .flag (m.accepts capacity now key)
  | .get key, answer => answer = .text (m.text? now key)
  | .remove key, answer =>
    ∃ found, answer = .flag found ∧ (m.isLive now key = true → found = true) ∧
      (found = true → key ∈ m)
  | .size, answer => answer = .count (m.liveCount now)
  | .isEmpty, answer => answer = .flag (m.liveCount now == 0)
  | .capacity, answer => answer = .count capacity

end Bindings

/-! ## Runs -/

/-- What can happen to a cache. -/
inductive Move where
  /-- It is used. -/
  | use (op : Operation)
  /-- Time passes. -/
  | pass (span : Time)
deriving DecidableEq, Repr

/-- The answers of a cache in a run that starts at a time. -/
def run : Time → List Move → Cache → List Answer
  | _, [], _ => []
  | now, .pass span :: moves, c => run (now + span) moves c
  | now, .use op :: moves, c =>
    let (answer, c) := c.perform now op
    answer :: run now moves c

/-- The answers that a map allows in a run that starts at a time. -/
inductive Bindings.Run (capacity : Nat) : Time → Bindings → List Move → List Answer → Prop where
  /-- The run is over. -/
  | done {now : Time} {m : Bindings} : Run capacity now m [] []
  /-- Time passes, and the map stays as it is. -/
  | pass {now span : Time} {m : Bindings} {moves : List Move} {answers : List Answer}
      (h : Run capacity (now + span) m moves answers) :
      Run capacity now m (.pass span :: moves) answers
  /-- The cache is used, with an answer that is allowed. -/
  | use {now : Time} {m : Bindings} {op : Operation} {answer : Answer} {moves : List Move}
      {answers : List Answer} (ha : m.Allows capacity now op answer)
      (h : Run capacity now (m.after capacity now op) moves answers) :
      Run capacity now m (.use op :: moves) (answer :: answers)

/-! ## Entries under distinct names -/

/-- What an entry says about its name. -/
def Entry.binding (e : Entry) : Binding := ⟨e.value, e.expiry⟩

theorem Entry.isLive_iff {now : Time} {e : Entry} : e.isLive now = true ↔ now < e.expiry := by
  simp [isLive]

theorem find?_eq_none_iff {c : Cache} {key : String} :
    c.find? key = none ↔ ∀ e ∈ c.entries, e.key ≠ key := by
  simp [find?, List.find?_eq_none]

/-- Under distinct names, the entry that is found is the only one of its name. -/
theorem find?_eq_some_iff {c : Cache} (hd : (c.entries.map Entry.key).Nodup) {key : String}
    {e : Entry} : c.find? key = some e ↔ e ∈ c.entries ∧ e.key = key := by
  constructor
  · exact of_find?_eq_some
  · rintro ⟨hmem, rfl⟩
    cases h : c.find? e.key with
    | none => exact absurd rfl (find?_eq_none_iff.mp h e hmem)
    | some e' =>
      obtain ⟨hmem', hk⟩ := of_find?_eq_some h
      rw [List.inj_on_of_nodup_map hd hmem' hmem hk]

/-- Under distinct names, erasing a name takes out its entry and nothing else. -/
theorem mem_erase_iff {c : Cache} (hd : (c.entries.map Entry.key).Nodup) {key : String}
    {e : Entry} : e ∈ (c.erase key).entries ↔ e ∈ c.entries ∧ e.key ≠ key := by
  obtain ⟨capacity, entries⟩ := c
  induction entries with
  | nil => simp [erase]
  | cons x xs ih =>
    obtain ⟨hx, hxs⟩ := List.nodup_cons.mp hd
    by_cases hk : x.key = key
    · have hrest : ∀ a ∈ xs, a.key ≠ key := by
        intro a ha h
        exact hx (List.mem_map.mpr ⟨a, ha, h.trans hk.symm⟩)
      simp only [erase, hk, beq_self_eq_true, List.eraseP_cons_of_pos, List.mem_cons]
      constructor
      · intro he
        exact ⟨Or.inr he, hrest e he⟩
      · rintro ⟨rfl | he, hne⟩
        · exact absurd hk hne
        · exact he
    · have hrec : e ∈ xs.eraseP (fun e => e.key == key) ↔ e ∈ xs ∧ e.key ≠ key := ih hxs
      simp only [erase, beq_iff_eq, hk, not_false_eq_true, List.eraseP_cons_of_neg, List.mem_cons,
        hrec]
      constructor
      · rintro (rfl | ⟨he, hne⟩)
        · exact ⟨Or.inl rfl, hk⟩
        · exact ⟨Or.inr he, hne⟩
      · rintro ⟨rfl | he, hne⟩
        · exact Or.inl rfl
        · exact Or.inr ⟨he, hne⟩

theorem mem_sweep_iff {now : Time} {c : Cache} {e : Entry} :
    e ∈ (c.sweep now).entries ↔ e ∈ c.entries ∧ now < e.expiry := by
  rw [sweep, List.mem_filter, Entry.isLive_iff]

/-! ## A cache and its map -/

/-- A cache shows a map: its entries are bound under distinct names, and every binding that is
still live has its entry. -/
structure Refines (now : Time) (c : Cache) (m : Bindings) : Prop where
  /-- No two entries have the same name. -/
  distinct : (c.entries.map Entry.key).Nodup
  /-- Every entry, live or dead, is bound. -/
  bound : ∀ e ∈ c.entries, m.lookup e.key = some e.binding
  /-- Every live binding has an entry. -/
  live : ∀ {key : String} {b : Binding}, m.lookup key = some b → now < b.expiry →
    ⟨key, b.value, b.expiry⟩ ∈ c.entries

namespace Refines

variable {now : Time} {c : Cache} {m : Bindings}

theorem empty (now : Time) (capacity : Nat) : Refines now ⟨capacity, []⟩ ∅ where
  distinct := List.nodup_nil
  bound := by simp
  live := by simp

/-- Time only lets bindings die. -/
theorem later (h : Refines now c m) (span : Time) : Refines (now + span) c m where
  distinct := h.distinct
  bound := h.bound
  live hb hlt := h.live hb (lt_of_le_of_lt (Nat.le_add_right now span) hlt)

/-- A cache may drop dead entries. -/
theorem prune (h : Refines now c m) {c' : Cache} (hs : c'.entries.Sublist c.entries)
    (hlive : ∀ e ∈ c.entries, now < e.expiry → e ∈ c'.entries) : Refines now c' m where
  distinct := h.distinct.sublist (hs.map _)
  bound e he := h.bound e (hs.subset he)
  live hb hlt := hlive _ (h.live hb hlt) hlt

theorem sweep (h : Refines now c m) : Refines now (c.sweep now) m :=
  h.prune List.filter_sublist fun _ he hlt => mem_sweep_iff.mpr ⟨he, hlt⟩

/-- A dead entry may be erased. -/
theorem erase_dead (h : Refines now c m) {e : Entry} {key : String} (he : c.find? key = some e)
    (hdead : ¬ now < e.expiry) : Refines now (c.erase key) m := by
  obtain ⟨hmem, hkey⟩ := (find?_eq_some_iff h.distinct).mp he
  refine h.prune (erase_sublist c key) fun e' he' hlt => ?_
  refine (mem_erase_iff h.distinct).mpr ⟨he', fun hk => hdead ?_⟩
  rwa [List.inj_on_of_nodup_map h.distinct hmem he' (hkey.trans hk.symm)]

/-- A name is live iff the entry that is found for it is. -/
theorem isLive_iff (h : Refines now c m) {key : String} :
    m.isLive now key = true ↔ ∃ e, c.find? key = some e ∧ now < e.expiry := by
  simp only [Bindings.isLive, Option.any_eq_true, decide_eq_true_eq]
  constructor
  · rintro ⟨b, hb, hlt⟩
    exact ⟨_, (find?_eq_some_iff h.distinct).mpr ⟨h.live hb hlt, rfl⟩, hlt⟩
  · rintro ⟨e, he, hlt⟩
    obtain ⟨hmem, rfl⟩ := (find?_eq_some_iff h.distinct).mp he
    exact ⟨_, h.bound e hmem, hlt⟩

/-- There are as many live bindings as live entries. -/
theorem liveCount_eq (h : Refines now c m) : m.liveCount now = (c.sweep now).entries.length := by
  have hkeys : (m.keys.filter fun key => m.isLive now key)
      = ((c.sweep now).entries.map Entry.key).toFinset := by
    ext key
    simp only [Finset.mem_filter, Finmap.mem_keys, h.isLive_iff, List.mem_toFinset, List.mem_map,
      mem_sweep_iff, find?_eq_some_iff h.distinct]
    constructor
    · rintro ⟨-, e, ⟨hmem, hk⟩, hlt⟩
      exact ⟨e, ⟨hmem, hlt⟩, hk⟩
    · rintro ⟨e, ⟨hmem, hlt⟩, rfl⟩
      exact ⟨Finmap.mem_of_lookup_eq_some (h.bound e hmem), e, ⟨hmem, rfl⟩, hlt⟩
  rw [Bindings.liveCount, hkeys, List.toFinset_card_of_nodup h.sweep.distinct, List.length_map]

/-- A new entry at the end binds its name. -/
theorem push (h : Refines now c m) {new : Entry} (hfree : c.find? new.key = none) :
    Refines now (c.push new) (m.insert new.key new.binding) where
  distinct := by
    simp only [Cache.push, List.map_append, List.map_cons, List.map_nil]
    refine List.nodup_append.mpr ⟨h.distinct, by simp, ?_⟩
    intro k hk k' hk' heq
    obtain ⟨e, he, rfl⟩ := List.mem_map.mp hk
    exact find?_eq_none_iff.mp hfree e he (heq.trans (List.mem_singleton.mp hk'))
  bound e he := by
    rcases List.mem_append.mp he with hold | hnew
    · rw [Finmap.lookup_insert_of_ne m (find?_eq_none_iff.mp hfree e hold)]
      exact h.bound e hold
    · rw [List.mem_singleton.mp hnew, Finmap.lookup_insert]
  live {key b} hb hlt := by
    by_cases hk : key = new.key
    · subst hk
      rw [Finmap.lookup_insert, Option.some.injEq] at hb
      subst hb
      exact List.mem_append.mpr (Or.inr (List.mem_singleton.mpr rfl))
    · rw [Finmap.lookup_insert_of_ne m hk] at hb
      exact List.mem_append.mpr (Or.inl (h.live hb hlt))

/-- An entry in the place of another one of its name binds the name anew. -/
theorem refresh (h : Refines now c m) (new : Entry) {old : Entry}
    (hold : c.find? new.key = some old) :
    Refines now (c.refresh new) (m.insert new.key new.binding) where
  distinct := by
    have hkeys : (c.refresh new).entries.map Entry.key = c.entries.map Entry.key := by
      simp only [Cache.refresh, List.map_map]
      refine List.map_congr_left fun e _ => ?_
      by_cases hk : e.key = new.key <;> simp [hk]
    rw [hkeys]
    exact h.distinct
  bound e he := by
    obtain ⟨e', he', heq⟩ := List.mem_map.mp he
    by_cases hk : e'.key = new.key
    · rw [if_pos (beq_iff_eq.mpr hk)] at heq
      rw [← heq, Finmap.lookup_insert]
    · rw [if_neg (fun hb => hk (beq_iff_eq.mp hb))] at heq
      rw [← heq, Finmap.lookup_insert_of_ne m hk]
      exact h.bound e' he'
  live {key b} hb hlt := by
    by_cases hk : key = new.key
    · subst hk
      rw [Finmap.lookup_insert, Option.some.injEq] at hb
      subst hb
      obtain ⟨hmem, hkey⟩ := (find?_eq_some_iff h.distinct).mp hold
      exact List.mem_map.mpr ⟨old, hmem, if_pos (beq_iff_eq.mpr hkey)⟩
    · rw [Finmap.lookup_insert_of_ne m hk] at hb
      exact List.mem_map.mpr ⟨_, h.live hb hlt, if_neg fun hb => hk (beq_iff_eq.mp hb)⟩

/-- A new name is bound if fewer bindings than the capacity are live. -/
theorem store (h : Refines now c m) {new : Entry} (hfree : c.find? new.key = none) :
    (c.store now new).1 = decide (m.liveCount now < c.capacity) ∧
      Refines now (c.store now new).2
        (if m.liveCount now < c.capacity then m.insert new.key new.binding else m) := by
  have hcount := h.liveCount_eq
  have hle : (c.sweep now).entries.length ≤ c.entries.length := List.length_filter_le _ _
  have hfree' : (c.sweep now).find? new.key = none :=
    find?_eq_none_iff.mpr fun e he => find?_eq_none_iff.mp hfree e (mem_sweep_iff.mp he).1
  by_cases hroom : c.entries.length < c.capacity
  · have hlt : m.liveCount now < c.capacity := by omega
    rw [Cache.store, hasRoom, if_pos (decide_eq_true hroom), if_pos hlt, decide_eq_true hlt]
    exact ⟨rfl, h.push hfree⟩
  · rw [Cache.store, hasRoom, if_neg (by simpa using hroom)]
    dsimp only
    by_cases hlt : m.liveCount now < c.capacity
    · have hroom' : (c.sweep now).hasRoom = true := decide_eq_true (hcount ▸ hlt)
      rw [if_pos hroom', if_pos hlt, decide_eq_true hlt]
      exact ⟨rfl, h.sweep.push hfree'⟩
    · have hroom' : ¬ (c.sweep now).hasRoom = true :=
        fun hr => hlt (hcount ▸ of_decide_eq_true hr)
      rw [if_neg hroom', if_neg hlt, decide_eq_false hlt]
      exact ⟨rfl, h.sweep⟩

/-! ### Uses of the cache -/

/-- Storing a text is accepted, and binds its name, exactly as the map says. -/
theorem set (h : Refines now c m) (key value : String) (life : Nat) :
    (c.set now key value life).1 = m.accepts c.capacity now key ∧
      Refines now (c.set now key value life).2
        (m.after c.capacity now (.set key value life)) := by
  cases hfind : c.find? key with
  | none =>
    have hdead : m.isLive now key = false := by
      simp [← Bool.not_eq_true, h.isLive_iff, hfind]
    have hset : c.set now key value life = c.store now (entry now key value life) := by
      simp [Cache.set, hfind]
    have hfree : c.find? (entry now key value life).key = none := hfind
    have hstore := h.store hfree
    simpa [hset, Bindings.after, Bindings.accepts, hdead, entry, Entry.binding, maxLife]
      using hstore
  | some old =>
    by_cases hlt : now < old.expiry
    · have hlive : m.isLive now key = true := h.isLive_iff.mpr ⟨old, hfind, hlt⟩
      have hset : c.set now key value life = (true, c.refresh (entry now key value life)) := by
        simp [Cache.set, hfind, Entry.isLive_iff.mpr hlt]
      have hrefresh := h.refresh (entry now key value life) hfind
      simpa [hset, Bindings.after, Bindings.accepts, hlive, entry, Entry.binding, maxLife]
        using hrefresh
    · have hdead : m.isLive now key = false := by
        simpa [← Bool.not_eq_true, h.isLive_iff, hfind] using hlt
      have hset : c.set now key value life
          = (c.erase key).store now (entry now key value life) := by
        simp [Cache.set, hfind, Entry.isLive, hlt]
      have hfree : (c.erase key).find? key = none :=
        find?_eq_none_iff.mpr fun e he => ((mem_erase_iff h.distinct).mp he).2
      -- Erasing keeps the capacity, so this is the room that `c` itself has.
      have hstore : ((c.erase key).store now (entry now key value life)).1
            = decide (m.liveCount now < c.capacity) ∧
          Refines now ((c.erase key).store now (entry now key value life)).2
            (if m.liveCount now < c.capacity then
              m.insert key (entry now key value life).binding else m) :=
        (h.erase_dead hfind hlt).store hfree
      simpa [hset, Bindings.after, Bindings.accepts, hdead, entry, Entry.binding, maxLife]
        using hstore

/-- A look-up gives the text of a live binding. -/
theorem get (h : Refines now c m) (key : String) :
    (c.get now key).1 = m.text? now key ∧ Refines now (c.get now key).2 m := by
  cases hfind : c.find? key with
  | none =>
    have hget : c.get now key = (none, c) := by simp [Cache.get, hfind]
    rw [hget]
    refine ⟨?_, h⟩
    cases hb : m.lookup key with
    | none => simp [Bindings.text?, hb]
    | some b =>
      have hdead : ¬ now < b.expiry := fun hlt => find?_eq_none_iff.mp hfind _ (h.live hb hlt) rfl
      simpa [Bindings.text?, hb] using hdead
  | some e =>
    obtain ⟨hmem, rfl⟩ := (find?_eq_some_iff h.distinct).mp hfind
    have hbound := h.bound e hmem
    by_cases hlt : now < e.expiry
    · have hget : c.get now e.key = (some e.value, c) := by
        simp [Cache.get, hfind, Entry.isLive, hlt]
      rw [hget]
      exact ⟨by simp [Bindings.text?, hbound, Entry.binding, hlt], h⟩
    · have hget : c.get now e.key = (none, c.erase e.key) := by
        simp [Cache.get, hfind, Entry.isLive, hlt]
      rw [hget]
      exact ⟨by simpa [Bindings.text?, hbound, Entry.binding] using hlt, h.erase_dead hfind hlt⟩

/-- A removal takes out the binding of its name.  It finds a live one, and nothing else than what
is bound. -/
theorem remove (h : Refines now c m) (key : String) :
    (m.isLive now key = true → (c.remove key).1 = true) ∧ ((c.remove key).1 = true → key ∈ m) ∧
      Refines now (c.remove key).2 (m.erase key) := by
  have herase : Refines now (c.erase key) (m.erase key) :=
    { distinct := h.distinct.sublist ((erase_sublist c key).map _)
      bound := fun e he => by
        obtain ⟨hmem, hne⟩ := (mem_erase_iff h.distinct).mp he
        rw [Finmap.lookup_erase_ne hne]
        exact h.bound e hmem
      live := fun {k b} hb hlt => by
        by_cases hk : k = key
        · subst hk
          rw [Finmap.lookup_erase] at hb
          cases hb
        · rw [Finmap.lookup_erase_ne hk] at hb
          exact (mem_erase_iff h.distinct).mpr ⟨h.live hb hlt, hk⟩ }
  cases hfind : c.find? key with
  | none =>
    have hsame : c.erase key = c := by
      have hall : ∀ e ∈ c.entries, ¬ (e.key == key) = true := fun e he hk =>
        find?_eq_none_iff.mp hfind e he (beq_iff_eq.mp hk)
      show { c with entries := _ } = c
      rw [List.eraseP_of_forall_not hall]
    have hremove : c.remove key = (false, c) := by simp [Cache.remove, hfind]
    rw [hremove]
    refine ⟨fun hlive => ?_, fun hf => (Bool.noConfusion hf), hsame ▸ herase⟩
    obtain ⟨e, he, -⟩ := h.isLive_iff.mp hlive
    rw [hfind] at he
    cases he
  | some e =>
    obtain ⟨hmem, rfl⟩ := (find?_eq_some_iff h.distinct).mp hfind
    have hremove : c.remove e.key = (true, c.erase e.key) := by simp [Cache.remove, hfind]
    rw [hremove]
    exact ⟨fun _ => rfl, fun _ => Finmap.mem_of_lookup_eq_some (h.bound e hmem), herase⟩

end Refines

/-! ## Runs of the cache -/

theorem capacity_store (c : Cache) (now : Time) (new : Entry) :
    (c.store now new).2.capacity = c.capacity := by
  rw [store]
  split
  · rfl
  · dsimp only
    split <;> rfl

/-- No use of the cache changes its capacity. -/
theorem capacity_perform (c : Cache) (now : Time) (op : Operation) :
    (c.perform now op).2.capacity = c.capacity := by
  cases op with
  | set key value life =>
    show (c.set now key value life).2.capacity = _
    rw [Cache.set]
    split
    · exact capacity_store c now _
    · split
      · rfl
      · exact capacity_store (c.erase key) now _
  | get key =>
    show (c.get now key).2.capacity = _
    rw [Cache.get]
    split
    · rfl
    · split <;> rfl
  | remove key =>
    show (c.remove key).2.capacity = _
    rw [Cache.remove]
    split <;> rfl
  | size => rfl
  | isEmpty => rfl
  | capacity => rfl

/-- Every use of the cache answers as its map allows and leaves a cache that shows the map after
it. -/
theorem perform_refines {now : Time} {c : Cache} {m : Bindings} (h : Refines now c m)
    (op : Operation) :
    m.Allows c.capacity now op (c.perform now op).1 ∧
      Refines now (c.perform now op).2 (m.after c.capacity now op) := by
  cases op with
  | set key value life =>
    obtain ⟨haccepted, hnext⟩ := h.set key value life
    exact ⟨congrArg Answer.flag haccepted, hnext⟩
  | get key => exact ⟨congrArg Answer.text (h.get key).1, (h.get key).2⟩
  | remove key =>
    obtain ⟨hfound, hbound, hrest⟩ := h.remove key
    exact ⟨⟨_, rfl, hfound, hbound⟩, hrest⟩
  | size => exact ⟨congrArg Answer.count h.liveCount_eq.symm, h.sweep⟩
  | isEmpty => exact ⟨congrArg (fun n => Answer.flag (n == 0)) h.liveCount_eq.symm, h.sweep⟩
  | capacity => exact ⟨rfl, h⟩

/-- From a cache that shows a map, a run of any length follows the map. -/
theorem Refines.run {now : Time} {c : Cache} {m : Bindings} (h : Refines now c m)
    (moves : List Move) : Bindings.Run c.capacity now m moves (c.run now moves) := by
  induction moves generalizing now c m with
  | nil => exact .done
  | cons move moves ih =>
    cases move with
    | pass span => exact .pass (ih (h.later span))
    | use op =>
      obtain ⟨hallowed, hnext⟩ := perform_refines h op
      have hrest := ih hnext
      rw [capacity_perform] at hrest
      exact .use hallowed hrest

/-- In every run of a cache that is empty at first, with uses and the passing of time in any order,
the answers are those of a map. -/
theorem run_follows_map (capacity : Nat) (now : Time) (moves : List Move) :
    Bindings.Run capacity now ∅ moves (run now moves ⟨capacity, []⟩) :=
  (Refines.empty now capacity).run moves

end ContentServer.Cache
