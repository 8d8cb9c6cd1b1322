import ContentServer.Proofs.Cache.Names
import Mathlib.Data.List.Dedup

/-!
# The row of entries

A cache keeps its entries in a row.  Where an entry stands does not show in an answer, but it
decides what a memory of a fixed size holds, so it should not drift.  This module says what a use
does to the row.

* A text under a live name takes the place of the old one.  Everything else stays where it is.
* A text under another name goes to the end if there is room.  Dead entries may go before that.
* Every other use only takes entries out, and a live one only if it is asked to remove it.

`Effect` lists these, and `perform_effect` says that there is nothing else.  Hence a live entry
under another name survives every use (`Effect.frame`), and the row is always in the order in which
its names were last put at its end (`Kept.performAll`).

Each use has a time of its own.  A use reads the clock before it gets hold of the cache, so a later
use may come with an earlier time, and nothing here depends on that.
-/

namespace ContentServer.Cache

/-! ## Uses with times of their own -/

/-- The cache after some uses, each at its time. -/
def performAll (c : Cache) : List (Time × Operation) → Cache
  | [] => c
  | (now, op) :: uses => performAll (c.perform now op).2 uses

/-- Whether there is a live entry under a name. -/
def hasLive (c : Cache) (now : Time) (key : String) : Bool :=
  c.entries.any fun e => e.key == key && e.isLive now

/-- The name that a use places: that of a `set` which finds no live entry of it.  There may be no
room for the text, and then the name is not in the cache at all. -/
def placed (c : Cache) (now : Time) : Operation → List String
  | .set key _ _ => if c.hasLive now key then [] else [key]
  | _ => []

/-- The names that some uses place, in their order. -/
def placedAll (c : Cache) : List (Time × Operation) → List String
  | [] => []
  | (now, op) :: uses => c.placed now op ++ placedAll (c.perform now op).2 uses

/-- The name that a use is about. -/
def Operation.key? : Operation → Option String
  | .set key _ _ | .get key | .remove key => some key
  | .size | .isEmpty | .capacity => none

/-! ## What a use does to the row -/

/-- A row without some of its dead entries. -/
structure Prunes (now : Time) (entries kept : List Entry) : Prop where
  sublist : kept.Sublist entries
  live : ∀ e ∈ entries, e.isLive now = true → e ∈ kept

/-- What a use makes of a row of entries in a cache of some capacity. -/
inductive Effect (capacity : Nat) (now : Time) (entries : List Entry) :
    Operation → List Entry → Prop where
  /-- A text under a live name takes the place of the old one. -/
  | refresh {front back : List Entry} {old : Entry} {value : String} {life : Nat}
      (hrow : entries = front ++ old :: back) (hlive : old.isLive now = true) :
      Effect capacity now entries (.set old.key value life)
        (front ++ entry now old.key value life :: back)
  /-- A text under another name goes to the end. -/
  | append {kept : List Entry} {key value : String} {life : Nat} (hkept : Prunes now entries kept)
      (hfree : ∀ e ∈ kept, e.key ≠ key) (hroom : kept.length < capacity) :
      Effect capacity now entries (.set key value life) (kept ++ [entry now key value life])
  /-- Among live entries that leave no room, nothing is stored. -/
  | refuse {kept : List Entry} {key value : String} {life : Nat} (hkept : Prunes now entries kept)
      (hfree : ∀ e ∈ kept, e.key ≠ key) (hlive : ∀ e ∈ kept, e.isLive now = true)
      (hfull : capacity ≤ kept.length) :
      Effect capacity now entries (.set key value life) kept
  /-- A use that stores nothing takes out dead entries and what it is asked to remove. -/
  | drop {kept : List Entry} {op : Operation} (hop : ∀ key value life, op ≠ .set key value life)
      (hsub : kept.Sublist entries)
      (hlive : ∀ e ∈ entries, e.isLive now = true → op ≠ .remove e.key → e ∈ kept)
      (hremoved : ∀ e ∈ kept, op ≠ .remove e.key) :
      Effect capacity now entries op kept

namespace Prunes

variable {now : Time} {entries kept : List Entry}

theorem refl (now : Time) (entries : List Entry) : Prunes now entries entries where
  sublist := .refl entries
  live _ he _ := he

theorem trans {between : List Entry} (h : Prunes now entries between)
    (h' : Prunes now between kept) : Prunes now entries kept where
  sublist := h'.sublist.trans h.sublist
  live e he hlive := h'.live e (h.live e he hlive) hlive

theorem sweep (now : Time) (c : Cache) : Prunes now c.entries (c.sweep now).entries where
  sublist := List.filter_sublist
  live _ he hlive := List.mem_filter.mpr ⟨he, hlive⟩

/-- Under distinct names, a dead entry that is erased leaves the live ones. -/
theorem erase {c : Cache} (hd : c.Distinct) {key : String} {old : Entry}
    (hfind : c.find? key = some old) (hdead : old.isLive now = false) :
    Prunes now c.entries (c.erase key).entries where
  sublist := erase_sublist c key
  live e he hlive := by
    refine (mem_erase_iff hd).mpr ⟨he, fun hkey => ?_⟩
    have hsame : c.find? key = some e := (find?_eq_some_iff hd).mpr ⟨he, hkey⟩
    rw [hfind, Option.some.injEq] at hsame
    rw [hsame, hlive] at hdead
    cases hdead

/-- A row and what is left of it have the same live entries. -/
theorem filter_eq (h : Prunes now entries kept) (hd : (entries.map Entry.key).Nodup) :
    kept.filter (Entry.isLive now) = entries.filter (Entry.isLive now) := by
  refine (h.sublist.filter _).eq_of_length_le ?_
  refine ((hd.of_map _).filter _).length_le_of_subset ?_
  intro e he
  obtain ⟨hmem, hlive⟩ := List.mem_filter.mp he
  exact List.mem_filter.mpr ⟨h.live e hmem hlive, hlive⟩

/-- A use that neither stores nor removes may prune. -/
theorem effect (h : Prunes now entries kept) (capacity : Nat) {op : Operation}
    (hset : ∀ key value life, op ≠ .set key value life) (hremove : ∀ key, op ≠ .remove key) :
    Effect capacity now entries op kept :=
  .drop hset h.sublist (fun e he hlive _ => h.live e he hlive) fun e _ => hremove e.key

end Prunes

variable {c : Cache} {now : Time} {key value : String} {life : Nat}

/-- A text under a name that is not in the cache is stored behind what is left of a row, or refused
because of it. -/
theorem store_effect {entries : List Entry} (hkept : Prunes now entries c.entries)
    (hfree : ∀ e ∈ c.entries, e.key ≠ key) :
    Effect c.capacity now entries (.set key value life)
      (c.store now (entry now key value life)).2.entries := by
  have hswept := Prunes.sweep now c
  have hfree' : ∀ e ∈ (c.sweep now).entries, e.key ≠ key := fun e he =>
    hfree e (hswept.sublist.subset he)
  rw [store]
  split
  · next hroom => exact .append hkept hfree (of_decide_eq_true hroom)
  · dsimp only
    split
    · next hroom => exact .append (hkept.trans hswept) hfree' (of_decide_eq_true hroom)
    · next hfull =>
      refine .refuse (hkept.trans hswept) hfree' (fun e he => (List.mem_filter.mp he).2) ?_
      exact Nat.le_of_not_lt fun hroom => hfull (decide_eq_true hroom)

/-- An entry that is refreshed keeps its place, and so do all others. -/
theorem refresh_row (hd : c.Distinct) (new : Entry) {old : Entry}
    (hfind : c.find? new.key = some old) :
    ∃ front back, c.entries = front ++ old :: back ∧
      (c.refresh new).entries = front ++ new :: back := by
  obtain ⟨hmem, hkey⟩ := (find?_eq_some_iff hd).mp hfind
  obtain ⟨front, back, hrow⟩ := List.append_of_mem hmem
  have hothers : ∀ e ∈ front ++ back, e.key ≠ new.key := by
    have hnodup := hd
    rw [Distinct, hrow, List.map_append, List.map_cons, List.nodup_middle,
      ← List.map_append] at hnodup
    intro e he heq
    exact (List.nodup_cons.mp hnodup).1 (List.mem_map.mpr ⟨e, he, heq.trans hkey.symm⟩)
  have hsame : ∀ row : List Entry, (∀ e ∈ row, e.key ≠ new.key) →
      row.map (fun e => if e.key == new.key then new else e) = row := by
    intro row hrow
    refine (List.map_congr_left fun e he => ?_).trans (List.map_id row)
    simp [hrow e he]
  refine ⟨front, back, hrow, ?_⟩
  rw [refresh, hrow]
  simp only [List.map_append, List.map_cons, hkey, beq_self_eq_true, if_true]
  rw [hsame front fun e he => hothers e (List.mem_append_left _ he),
    hsame back fun e he => hothers e (List.mem_append_right _ he)]

theorem set_effect (hd : c.Distinct) (now : Time) (key value : String) (life : Nat) :
    Effect c.capacity now c.entries (.set key value life)
      (c.set now key value life).2.entries := by
  rw [set]
  cases hfind : c.find? key with
  | none => exact store_effect (.refl now c.entries) (find?_eq_none_iff.mp hfind)
  | some old =>
    dsimp only
    cases hlive : old.isLive now with
    | true =>
      obtain ⟨front, back, hrow, hrefreshed⟩ :=
        refresh_row hd (entry now key value life) hfind
      obtain ⟨-, rfl⟩ := of_find?_eq_some hfind
      rw [if_pos rfl, hrefreshed]
      exact .refresh hrow hlive
    | false =>
      have hfree : ∀ e ∈ (c.erase key).entries, e.key ≠ key := fun e he =>
        ((mem_erase_iff hd).mp he).2
      exact store_effect (Prunes.erase hd hfind hlive) hfree

theorem get_prunes (hd : c.Distinct) (now : Time) (key : String) :
    Prunes now c.entries (c.get now key).2.entries := by
  rw [get]
  cases hfind : c.find? key with
  | none => exact .refl now c.entries
  | some old =>
    dsimp only
    cases hlive : old.isLive now with
    | true => exact .refl now c.entries
    | false => exact Prunes.erase hd hfind hlive

theorem remove_effect (hd : c.Distinct) (now : Time) (key : String) :
    Effect c.capacity now c.entries (.remove key) (c.remove key).2.entries := by
  have hset : ∀ k value life, Operation.remove key ≠ .set k value life := by simp
  rw [remove]
  cases hfind : c.find? key with
  | none =>
    refine .drop hset (.refl _) (fun e he _ _ => he) fun e he heq => ?_
    exact find?_eq_none_iff.mp hfind e he (Operation.remove.inj heq).symm
  | some old =>
    refine .drop hset (erase_sublist c key) (fun e he _ hne => ?_) fun e he heq => ?_
    · exact (mem_erase_iff hd).mpr ⟨he, fun hkey => hne (congrArg Operation.remove hkey.symm)⟩
    · exact ((mem_erase_iff hd).mp he).2 (Operation.remove.inj heq).symm

/-- A use does one of these things to the row, and nothing else. -/
theorem perform_effect (hd : c.Distinct) (now : Time) (op : Operation) :
    Effect c.capacity now c.entries op (c.perform now op).2.entries := by
  have hswept := Prunes.sweep now c
  cases op with
  | set key value life => exact set_effect hd now key value life
  | get key => exact (get_prunes hd now key).effect _ (by simp) (by simp)
  | remove key => exact remove_effect hd now key
  | size => exact hswept.effect _ (by simp) (by simp)
  | isEmpty => exact hswept.effect _ (by simp) (by simp)
  | capacity => exact (Prunes.refl now c.entries).effect _ (by simp) (by simp)

/-! ### Live entries -/

/-- The live entries of a cache, in their order. -/
def live (now : Time) (c : Cache) : List Entry := c.entries.filter (Entry.isLive now)

theorem mem_live_iff {e : Entry} : e ∈ c.live now ↔ e ∈ c.entries ∧ e.isLive now = true :=
  List.mem_filter

/-- A look-up leaves what is live. -/
theorem live_get (hd : c.Distinct) (now : Time) (key : String) :
    (c.get now key).2.live now = c.live now :=
  (get_prunes hd now key).filter_eq hd

/-- A look-up finds the live entry of its name, if there is one. -/
theorem get_cases (hd : c.Distinct) (now : Time) (key : String) :
    (∃ e ∈ c.live now, e.key = key ∧ (c.get now key).1 = some e.value) ∨
      (∀ e ∈ c.live now, e.key ≠ key) ∧ (c.get now key).1 = none := by
  rw [get]
  cases hfind : c.find? key with
  | none =>
    exact Or.inr ⟨fun e he => find?_eq_none_iff.mp hfind e (mem_live_iff.mp he).1, rfl⟩
  | some found =>
    obtain ⟨hmem, hkey⟩ := of_find?_eq_some hfind
    dsimp only
    cases hlive : found.isLive now with
    | true => exact Or.inl ⟨found, mem_live_iff.mpr ⟨hmem, hlive⟩, hkey, rfl⟩
    | false =>
      refine Or.inr ⟨fun e he heq => ?_, rfl⟩
      obtain ⟨hmem', hlive'⟩ := mem_live_iff.mp he
      have hsame : c.find? key = some e := (find?_eq_some_iff hd).mpr ⟨hmem', heq⟩
      rw [hfind, Option.some.injEq] at hsame
      rw [hsame, hlive'] at hlive
      cases hlive

/-- A text that is stored for no time at all is dead at once. -/
theorem entry_isLive (now : Time) (key value : String) (life : Nat) :
    (entry now key value life).isLive now = true ↔ 0 < life := by
  have hlongest : 0 < maxLife := by decide
  rw [Entry.isLive_iff, entry, Nat.lt_add_right_iff_pos, Clock.seconds]
  omega

/-- Storing a text under a name that is not live adds its entry if there is room among the live
ones, and changes nothing of them if there is none. -/
theorem live_set (hd : c.Distinct) (hdead : ∀ e ∈ c.live now, e.key ≠ key) (value : String)
    (life : Nat) :
    (c.set now key value life).2.live now
      = c.live now ++ if (c.live now).length < c.capacity ∧ 0 < life then
          [entry now key value life] else [] := by
  have heffect := set_effect hd now key value life
  rw [live]
  generalize (c.set now key value life).2.entries = row at heffect ⊢
  cases heffect with
  | @refresh front back old _ _ hrow hlive =>
    exact absurd rfl (hdead old (mem_live_iff.mpr ⟨by simp [hrow], hlive⟩))
  | @append kept _ _ _ hkept _ hroom =>
    have hle : (c.live now).length ≤ kept.length := by
      rw [live, ← hkept.filter_eq hd]
      exact List.length_filter_le _ kept
    have hroom' : (c.live now).length < c.capacity := by omega
    rw [List.filter_append, hkept.filter_eq hd, ← live]
    simp only [hroom', true_and, List.filter_cons, List.filter_nil, entry_isLive]
  | refuse hkept _ hlive hfull =>
    have hsame : row = c.live now :=
      (List.filter_eq_self.mpr hlive).symm.trans (hkept.filter_eq hd)
    rw [if_neg (by rw [← hsame]; omega), List.append_nil, hkept.filter_eq hd, live]
  | drop hop _ _ _ => exact absurd rfl (hop key value life)

namespace Effect

variable {capacity : Nat} {entries row : List Entry} {op : Operation}

/-- A live entry under another name stays as it is. -/
theorem frame (h : Effect capacity now entries op row) {e : Entry} (he : e ∈ entries)
    (hlive : e.isLive now = true) (hother : op.key? ≠ some e.key) : e ∈ row := by
  cases h with
  | @refresh front back old value life hrow _ =>
    have hne : e ≠ old := by
      rintro rfl
      exact hother rfl
    rw [hrow] at he
    rcases List.mem_append.mp he with hfront | hback
    · exact List.mem_append_left _ hfront
    · have hbehind : e ∈ back := (List.mem_cons.mp hback).resolve_left hne
      exact List.mem_append_right _ (List.mem_cons_of_mem _ hbehind)
  | append hkept _ _ => exact List.mem_append_left _ (hkept.live e he hlive)
  | refuse hkept _ _ _ => exact hkept.live e he hlive
  | drop _ _ hkeep _ =>
    refine hkeep e he hlive ?_
    rintro rfl
    exact hother rfl

/-- A row that fits into the capacity still does. -/
theorem length_le (h : Effect capacity now entries op row) (hle : entries.length ≤ capacity) :
    row.length ≤ capacity := by
  cases h with
  | refresh hrow _ => simpa [hrow] using hle
  | append _ _ hroom =>
    rw [List.length_append]
    exact hroom
  | refuse hkept _ _ _ => exact hkept.sublist.length_le.trans hle
  | drop _ hsub _ _ => exact hsub.length_le.trans hle

end Effect

/-! ## The order of the row -/

/-- Of a name that comes again the last place counts. -/
theorem dedup_concat (names : List String) (name : String) :
    (names ++ [name]).dedup = names.dedup.filter (· ≠ name) ++ [name] := by
  induction names with
  | nil => simp
  | cons first names ih =>
    by_cases hmem : first ∈ names
    · rw [List.cons_append, List.dedup_cons_of_mem (List.mem_append_left _ hmem), ih,
        List.dedup_cons_of_mem hmem]
    · rw [List.cons_append, List.dedup_cons_of_notMem hmem]
      by_cases hfirst : first = name
      · rw [List.dedup_cons_of_mem (by simp [hfirst]), ih,
          List.filter_cons_of_neg (by simp [hfirst])]
      · rw [List.dedup_cons_of_notMem (by simp [hmem, hfirst]), ih,
          List.filter_cons_of_pos (by simp [hfirst]), List.cons_append]

theorem hasLive_iff : c.hasLive now key = true ↔ ∃ e ∈ c.entries, e.key = key ∧ e.isLive now := by
  simp [hasLive]

namespace Prunes

variable {entries kept : List Entry}

/-- Where no entry of a name is left, none was live. -/
theorem hasLive_eq_false (h : Prunes now c.entries kept) (hfree : ∀ e ∈ kept, e.key ≠ key) :
    c.hasLive now key = false := by
  rw [← Bool.not_eq_true, hasLive_iff]
  rintro ⟨e, he, hkey, hlive⟩
  exact hfree e (h.live e he hlive) hkey

/-- What is left under other names than one stays in the order of these. -/
theorem keys_sublist (h : Prunes now entries kept) (hfree : ∀ e ∈ kept, e.key ≠ key)
    {names : List String} (hordered : (entries.map Entry.key).Sublist names) :
    (kept.map Entry.key).Sublist (names.filter (· ≠ key)) := by
  have hsame : (kept.map Entry.key).filter (· ≠ key) = kept.map Entry.key :=
    List.filter_eq_self.mpr (by simpa using hfree)
  rw [← hsame]
  exact ((h.sublist.map _).trans hordered).filter _

end Prunes

/-- The row after a use is in the order in which its names were last placed. -/
theorem Effect.ordered {names : List String} {op : Operation} {row : List Entry} {capacity : Nat}
    (h : Effect capacity now c.entries op row)
    (hordered : (c.entries.map Entry.key).Sublist names.dedup) :
    (row.map Entry.key).Sublist (names ++ c.placed now op).dedup := by
  cases h with
  | @refresh front back old value life hrow hlive =>
    have hfound : c.hasLive now old.key = true :=
      hasLive_iff.mpr ⟨old, by simp [hrow], rfl, hlive⟩
    simpa [placed, hfound, hrow, entry] using hordered
  | append hkept hfree _ =>
    rw [placed, if_neg (by simp [hkept.hasLive_eq_false hfree]), dedup_concat, List.map_append]
    exact (hkept.keys_sublist hfree hordered).append (.refl _)
  | refuse hkept hfree _ _ =>
    rw [placed, if_neg (by simp [hkept.hasLive_eq_false hfree]), dedup_concat]
    exact (hkept.keys_sublist hfree hordered).trans (List.sublist_append_left _ _)
  | drop hop hsub _ _ =>
    have hnone : c.placed now op = [] := by
      cases op with
      | set key value life => exact absurd rfl (hop key value life)
      | _ => rfl
    rw [hnone, List.append_nil]
    exact (hsub.map _).trans hordered

/-- A cache that is in shape after the names of a history were placed: no name stands in it twice,
the entries fit, and they stand in the order in which their names were last placed. -/
structure Kept (c : Cache) (names : List String) : Prop where
  distinct : c.Distinct
  fits : c.entries.length ≤ c.capacity
  ordered : (c.entries.map Entry.key).Sublist names.dedup

namespace Kept

variable {names : List String}

theorem empty (capacity : Nat) : Kept ⟨capacity, []⟩ [] where
  distinct := distinct_empty capacity
  fits := Nat.zero_le capacity
  ordered := .refl []

theorem perform (h : c.Kept names) (now : Time) (op : Operation) :
    (c.perform now op).2.Kept (names ++ c.placed now op) where
  distinct := h.distinct.perform now op
  fits := by
    rw [capacity_perform]
    exact (perform_effect h.distinct now op).length_le h.fits
  ordered := (perform_effect h.distinct now op).ordered h.ordered

theorem performAll (h : c.Kept names) (uses : List (Time × Operation)) :
    (c.performAll uses).Kept (names ++ c.placedAll uses) := by
  induction uses generalizing c names with
  | nil => simpa [Cache.performAll, placedAll] using h
  | cons use uses ih =>
    obtain ⟨now, op⟩ := use
    rw [Cache.performAll, placedAll, ← List.append_assoc]
    exact ih (h.perform now op)

end Kept

theorem capacity_performAll (c : Cache) (uses : List (Time × Operation)) :
    (c.performAll uses).capacity = c.capacity := by
  induction uses generalizing c with
  | nil => rfl
  | cons use uses ih =>
    obtain ⟨now, op⟩ := use
    rw [performAll, ih, capacity_perform]

/-- A cache that was empty at first, after any uses at any times: its names are distinct, its
entries fit, and they stand in the order in which their names were last placed.  One more use at
any time leaves the live entries of other names as they are.  It refreshes an entry at its place, or
puts one at the end, or only takes entries out. -/
theorem row_after_uses (capacity : Nat) (uses : List (Time × Operation)) :
    let c := performAll ⟨capacity, []⟩ uses
    (c.entries.map Entry.key).Nodup ∧ c.entries.length ≤ capacity ∧
      (c.entries.map Entry.key).Sublist (placedAll ⟨capacity, []⟩ uses).dedup ∧
      ∀ (now : Time) (op : Operation),
        (∀ e ∈ c.entries, now < e.expiry → op.key? ≠ some e.key →
          e ∈ (c.perform now op).2.entries) ∧
        Effect capacity now c.entries op (c.perform now op).2.entries := by
  intro c
  have hcapacity : c.capacity = capacity := capacity_performAll ⟨capacity, []⟩ uses
  have hkept : c.Kept (placedAll ⟨capacity, []⟩ uses) := (Kept.empty capacity).performAll uses
  refine ⟨hkept.distinct, hcapacity ▸ hkept.fits, hkept.ordered, fun now op => ?_⟩
  have heffect : Effect capacity now c.entries op (c.perform now op).2.entries :=
    hcapacity ▸ perform_effect hkept.distinct now op
  exact ⟨fun e he hlt hother => heffect.frame he (Entry.isLive_iff.mpr hlt) hother, heffect⟩

-- A refreshed entry stays in front, and one that has died goes to the end when it is set again.
example :
    (performAll ⟨2, []⟩ [(0, .set "a" "x" 5), (0, .set "b" "y" 9),
      (1, .set "a" "z" 5)]).entries.map Entry.key = ["a", "b"] := by decide
example :
    (performAll ⟨2, []⟩ [(0, .set "a" "x" 5), (0, .set "b" "y" 9),
      (Clock.seconds 5, .set "a" "z" 5)]).entries.map Entry.key = ["b", "a"] := by decide

end ContentServer.Cache
