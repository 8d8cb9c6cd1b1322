import ContentServer.Proofs.Text.Lines
import ContentServer.Text.Blank
import ContentServer.Text.Pattern

/-!
# Where the ways of a pattern lead

A pattern may have many ways to match.  Three kinds of parts are told here where they lead.

* A word has one way or none (`ways_word`).
* The longest run of characters other than `c` is the only one with a `c` behind it, and so it leads
  to the first `c` (`flatMap_rests_of_ne`).
* Runs of any characters are tried from the shortest one on.  The preferred one with a mark behind
  it leads to the first mark (`head?_flatMap_rests`).

So what backtracking finds with such parts can also be found by looking for one mark after the
other.
-/

namespace ContentServer.Text.Pattern

variable {accepts : Char → Bool} {c : Char} {cs : List Char} {β : Type}

/-! ## Runs -/

theorem rests_append (found : List (List Char)) (cs : List Char) :
    rests accepts found cs = rests accepts [] cs ++ found := by
  induction cs generalizing found with
  | nil => rfl
  | cons c cs ih =>
    rw [rests, rests]
    split
    · rw [ih, ih [c :: cs], List.append_assoc]
      rfl
    · rfl

theorem rests_cons_of_pos (h : accepts c = true) :
    rests accepts [] (c :: cs) = rests accepts [] cs ++ [c :: cs] := by
  rw [rests, if_pos h, rests_append]

theorem rests_cons_of_neg (h : accepts c = false) :
    rests accepts [] (c :: cs) = [c :: cs] := by
  rw [rests, if_neg (by simp [h])]

/-! ## Rows and words -/

theorem ways_row_cons (p : Pattern) (ps : List Pattern) (w : Way) :
    (row (p :: ps)).ways w = (p.ways w).flatMap (row ps).ways := rfl

theorem ways_row_singleton (p : Pattern) (w : Way) : (row [p]).ways w = p.ways w :=
  List.flatMap_singleton' (p.ways w)

theorem ways_one_cons (accepts : Char → Bool) (w : Way) (c : Char) (rest : List Char) :
    (one accepts).ways { w with rest := c :: rest }
      = if accepts c then [{ w with rest }] else [] := rfl

/-- A word is matched in one way or not at all. -/
theorem ways_word (s : String) (w : Way) :
    (word s).ways w
      = if s.toList.isPrefixOf (lower w.rest) then
          [{ w with rest := w.rest.drop s.toList.length }]
        else [] := by
  rw [word]
  generalize s.toList = letters
  induction letters generalizing w with
  | nil => rfl
  | cons c letters ih =>
    obtain ⟨rest, part⟩ := w
    rw [List.map_cons, ways_row_cons]
    cases rest with
    | nil => rfl
    | cons d rest =>
      have hsame : (c == d.toLower) = (d.toLower == c) := BEq.comm
      rw [ways_one_cons _ ⟨[], part⟩, lower, List.map_cons, List.isPrefixOf_cons_cons, hsame]
      cases d.toLower == c with
      | false => rfl
      | true =>
        rw [Bool.true_and, if_pos rfl, List.flatMap_singleton]
        exact ih ⟨rest, part⟩

theorem ways_word_of_starts {s : String} {rest : List Char} (h : s.toList <+: lower rest)
    (part : Option (List Char × List Char)) :
    (word s).ways ⟨rest, part⟩ = [⟨rest.drop s.toList.length, part⟩] := by
  rw [ways_word, if_pos (List.isPrefixOf_iff_prefix.mpr h)]

theorem ways_word_of_not_starts {s : String} {rest : List Char} (h : ¬ s.toList <+: lower rest)
    (part : Option (List Char × List Char)) : (word s).ways ⟨rest, part⟩ = [] := by
  rw [ways_word, if_neg fun hp => h (List.isPrefixOf_iff_prefix.mp hp)]

theorem ways_word_ne_nil_iff {s : String} {rest : List Char}
    {part : Option (List Char × List Char)} :
    (word s).ways ⟨rest, part⟩ ≠ [] ↔ s.toList <+: lower rest := by
  by_cases h : s.toList <+: lower rest
  · rw [ways_word_of_starts h]
    exact iff_of_true (List.cons_ne_nil _ _) h
  · rw [ways_word_of_not_starts h]
    exact iff_of_false (fun hne => hne rfl) h

/-! ## Runs with a mark behind them -/

/-- Behind the longest run of other characters stands the first `c`. -/
theorem flatMap_rests_of_ne (f : List Char → List β)
    (hf : ∀ rest, rest.head? ≠ some c → f rest = []) (cs : List Char) :
    (rests (· != c) [] cs).flatMap f
      = match firstIndex? [c] cs with
        | none => []
        | some q => f (cs.drop q) := by
  induction cs with
  | nil => simpa [rests, firstIndex?, firstIndexFrom] using hf [] (by simp)
  | cons d cs ih =>
    by_cases hd : d = c
    · have hfirst : firstIndex? [c] (d :: cs) = some 0 :=
        firstIndex?_of_starts ⟨cs, by rw [hd]; rfl⟩
      rw [rests_cons_of_neg (by simp [hd]), hfirst]
      exact List.flatMap_singleton ..
    · have hfirst : firstIndex? [c] (d :: cs) = (firstIndex? [c] cs).map (· + 1) :=
        firstIndex?_cons (by simp [List.cons_prefix_cons, Ne.symm hd])
      rw [rests_cons_of_pos (by simp [hd]), List.flatMap_append, ih, hfirst,
        List.flatMap_singleton, hf (d :: cs) (by simp [hd]), List.append_nil]
      cases firstIndex? [c] cs <;> rfl

/-- The shortest run with `mark` behind it ends at the first `mark`. -/
theorem head?_flatMap_rests (mark : List Char) (f : List Char → List β)
    (hf : ∀ rest, f rest ≠ [] ↔ mark <+: lower rest) (cs : List Char) :
    ((rests (fun _ => true) [] cs).reverse.flatMap f).head?
      = match firstIndex? mark (lower cs) with
        | none => none
        | some s => (f (cs.drop s)).head? := by
  have hnil : ∀ rest, ¬ mark <+: lower rest → f rest = [] := fun rest h =>
    Decidable.not_not.mp fun hne => h ((hf rest).mp hne)
  induction cs with
  | nil =>
    by_cases h : mark <+: lower []
    · rw [firstIndex?_of_starts h]
      simp [rests]
    · have hnone : firstIndex? mark (lower []) = none := by
        rw [firstIndex?_eq_none_iff]
        simpa [lower] using h
      rw [hnone]
      simp [rests, hnil [] h]
  | cons c cs ih =>
    rw [rests_cons_of_pos rfl, List.reverse_append, List.reverse_singleton, List.singleton_append,
      List.flatMap_cons, List.head?_append]
    by_cases h : mark <+: lower (c :: cs)
    · obtain ⟨x, xs, hx⟩ := List.exists_cons_of_ne_nil ((hf (c :: cs)).mpr h)
      rw [firstIndex?_of_starts h]
      simp only [List.drop_zero, hx]
      rfl
    · have hlater : firstIndex? mark (lower (c :: cs))
          = (firstIndex? mark (lower cs)).map (· + 1) := firstIndex?_cons h
      rw [hnil _ h, hlater, ih]
      cases firstIndex? mark (lower cs) <;> rfl

/-! ## Searching -/

/-- A match at the first place is preferred to every later one. -/
theorem search_cons (p : Pattern) (c : Char) (cs : List Char) :
    p.search (c :: cs) = (p.ways { rest := c :: cs }).head?.or (p.search cs) := by
  rw [search]
  cases (p.ways { rest := c :: cs }).head? <;> rfl

end ContentServer.Text.Pattern
