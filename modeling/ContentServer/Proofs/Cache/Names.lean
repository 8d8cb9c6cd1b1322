import ContentServer.Proofs.Cache.KeyedMap

/-!
# Names in a cache

No two entries of a cache have the same name.  An empty cache is like that, and no use of a cache
stores a second entry of a name, because an old one is refreshed or erased first.

A cache with distinct names shows a map, the one that binds exactly its entries
(`Distinct.refines`).  So what is known of caches that show a map is known of all of them, whatever
the time is.
-/

namespace ContentServer.Cache

/-- No two entries have the same name. -/
def Distinct (c : Cache) : Prop := (c.entries.map Entry.key).Nodup

/-- The map that binds the entries of a cache and nothing else. -/
def bindings (c : Cache) : Bindings :=
  (c.entries.map fun e => (⟨e.key, e.binding⟩ : Sigma fun _ : String => Binding)).toFinmap

variable {c : Cache} {now : Time}

theorem distinct_empty (capacity : Nat) : Distinct ⟨capacity, []⟩ := List.nodup_nil

theorem Distinct.lookup_bindings (h : c.Distinct) {key : String} {b : Binding} :
    c.bindings.lookup key = some b ↔ ⟨key, b.value, b.expiry⟩ ∈ c.entries := by
  have hkeys : (c.entries.map fun e =>
      (⟨e.key, e.binding⟩ : Sigma fun _ : String => Binding)).NodupKeys := by
    rw [List.NodupKeys, List.keys, List.map_map]
    exact h
  rw [bindings, Finmap.dlookup_list_toFinmap, ← Option.mem_def, List.mem_dlookup_iff hkeys,
    List.mem_map]
  constructor
  · rintro ⟨e, he, heq⟩
    cases heq
    exact he
  · intro he
    exact ⟨_, he, rfl⟩

/-- A cache with distinct names shows the map that binds its entries. -/
theorem Distinct.refines (h : c.Distinct) (now : Time) : Refines now c c.bindings where
  distinct := h
  bound _ he := h.lookup_bindings.mpr he
  live hb _ := h.lookup_bindings.mp hb

/-! ## Uses keep the names distinct -/

theorem Distinct.perform (h : c.Distinct) (now : Time) (op : Operation) :
    (c.perform now op).2.Distinct :=
  (perform_refines (h.refines now) op).2.distinct

theorem Distinct.get (h : c.Distinct) (now : Time) (key : String) : (c.get now key).2.Distinct :=
  h.perform now (.get key)

theorem Distinct.set (h : c.Distinct) (now : Time) (key value : String) (life : Nat) :
    (c.set now key value life).2.Distinct :=
  h.perform now (.set key value life)

/-- A look-up that finds nothing live leaves nothing dead either. -/
theorem Distinct.key_ne_of_get_eq_none (h : c.Distinct) {key : String}
    (hget : (c.get now key).1 = none) {e : Entry} (he : e ∈ (c.get now key).2.entries) :
    e.key ≠ key := by
  rw [Cache.get] at hget he
  cases hfind : c.find? key with
  | none =>
    rw [hfind] at he
    exact find?_eq_none_iff.mp hfind e he
  | some found =>
    rw [hfind] at hget he
    cases hlive : found.isLive now with
    | true => simp [hlive] at hget
    | false =>
      simp only [hlive] at he
      exact ((mem_erase_iff h).mp he).2

end ContentServer.Cache
