import ContentServer.Proofs.Text.Lines
import ContentServer.Text.Blank
import Mathlib.Data.List.TakeWhile

/-!
# Trimming and cutting

A value that is a list is trimmed, cut at its marks, trimmed again piece by piece and put into lower
case.  Most of this can be done in another order.

* Trimming the whole first makes no difference to the pieces once they are trimmed
  (`map_trim_splitOn_trim`), because a blank at an end of the whole is at an end of a piece, too.
* Lower case can come before the cutting or after it (`splitOn_map`), and before the trimming or
  after it (`lower_trim`), because it makes and removes neither blanks nor commas.
-/

namespace ContentServer.Text

/-! ## Trimming -/

theorem trim_append_left {left : List Char} (h : ∀ c ∈ left, isBlank c = true) (cs : List Char) :
    trim (left ++ cs) = trim cs := by
  rw [trim, List.dropWhile_append_of_pos h, trim]

theorem trim_append_right {right : List Char} (h : ∀ c ∈ right, isBlank c = true)
    (cs : List Char) : trim (cs ++ right) = trim cs := by
  rw [trim, List.dropWhile_append]
  split
  · next hall =>
    have hright : right.dropWhile isBlank = [] := by simpa using h
    rw [trim, List.isEmpty_iff.mp hall, hright]
  · have hreverse : ∀ c ∈ right.reverse, isBlank c = true := fun c hc =>
      h c (List.mem_reverse.mp hc)
    rw [List.reverse_append, List.dropWhile_append_of_pos hreverse, trim]

/-- What trimming takes away are blanks at both ends. -/
theorem exists_blank_trim (cs : List Char) :
    ∃ left right, cs = left ++ (trim cs ++ right) ∧ (∀ c ∈ left, isBlank c = true) ∧
      ∀ c ∈ right, isBlank c = true := by
  refine ⟨cs.takeWhile isBlank, ((cs.dropWhile isBlank).reverse.takeWhile isBlank).reverse, ?_,
    fun c => List.mem_takeWhile_imp, fun c hc => List.mem_takeWhile_imp (List.mem_reverse.mp hc)⟩
  rw [trim, ← List.reverse_append, List.takeWhile_append_dropWhile,
    List.reverse_reverse, List.takeWhile_append_dropWhile]

/-- Trimming that takes nothing away changes nothing. -/
theorem trim_eq_self_of_length_eq {cs : List Char} (h : (trim cs).length = cs.length) :
    trim cs = cs := by
  obtain ⟨left, right, hcs, -, -⟩ := exists_blank_trim cs
  have hlength := congrArg List.length hcs
  rw [List.length_append, List.length_append] at hlength
  have hleft : left = [] := List.eq_nil_of_length_eq_zero (by omega)
  have hright : right = [] := List.eq_nil_of_length_eq_zero (by omega)
  rw [hleft, hright, List.append_nil, List.nil_append] at hcs
  exact hcs.symm

/-! ## Cutting what is trimmed -/

section Split

variable {α : Type} [BEq α]

/-- Cutting goes along with a change of the elements that keeps the marks apart. -/
theorem splitOn_map {c : α} {change : α → α} (h : ∀ x, (change x == c) = (x == c)) (xs : List α) :
    List.splitOn c (xs.map change) = (List.splitOn c xs).map (List.map change) := by
  induction xs with
  | nil => rfl
  | cons x xs ih =>
    obtain ⟨first, pieces, hcut⟩ := List.exists_cons_of_ne_nil (List.splitOn_ne_nil c xs)
    rw [List.map_cons, List.splitOn_cons_eq_if_modifyHead, List.splitOn_cons_eq_if_modifyHead, h,
      ih, hcut]
    split <;> rfl

variable [LawfulBEq α]

/-- What is put in front of a list without a mark in it goes to the first piece. -/
theorem exists_splitOn_append_left (c : α) (xs : List α) :
    ∃ first pieces, List.splitOn c xs = first :: pieces ∧
      ∀ left, c ∉ left → List.splitOn c (left ++ xs) = (left ++ first) :: pieces := by
  obtain ⟨first, pieces, hcut⟩ := List.exists_cons_of_ne_nil (List.splitOn_ne_nil c xs)
  obtain ⟨rfl, hpieces⟩ := splitOn_eq_cons_iff.mp hcut
  refine ⟨first, pieces, hcut, fun left hleft => ?_⟩
  rw [← List.append_assoc]
  refine splitOn_eq_cons_iff.mpr ⟨rfl, fun p hp => ?_⟩
  rcases List.mem_cons.mp hp with rfl | hp
  · rw [List.mem_append, not_or]
    exact ⟨hleft, hpieces first List.mem_cons_self⟩
  · exact hpieces p (List.mem_cons_of_mem _ hp)

/-- What is put behind a list without a mark in it goes to the last piece. -/
theorem exists_splitOn_append_right (c : α) (xs : List α) :
    ∃ pieces last, List.splitOn c xs = pieces ++ [last] ∧
      ∀ right, c ∉ right → List.splitOn c (xs ++ right) = pieces ++ [last ++ right] := by
  induction xs with
  | nil => exact ⟨[], [], rfl, fun right hright => List.splitOn_eq_singleton hright⟩
  | cons x xs ih =>
    obtain ⟨pieces, last, hcut, hmore⟩ := ih
    cases hx : x == c with
    | true =>
      refine ⟨[] :: pieces, last, ?_, fun right hright => ?_⟩
      · rw [List.splitOn_cons_eq_if_modifyHead, if_pos hx, hcut, List.cons_append]
      · rw [List.cons_append, List.splitOn_cons_eq_if_modifyHead, if_pos hx, hmore right hright,
          List.cons_append]
    | false =>
      have hskip : ∀ ys, List.splitOn c (x :: ys)
          = (List.splitOn c ys).modifyHead (List.cons x) := by
        intro ys
        rw [List.splitOn_cons_eq_if_modifyHead, hx, if_neg Bool.false_ne_true]
      -- The element goes to the first piece, which may be the last one.
      cases pieces with
      | nil =>
        refine ⟨[], x :: last, ?_, fun right hright => ?_⟩
        · rw [hskip, hcut]
          rfl
        · rw [List.cons_append, hskip, hmore right hright]
          rfl
      | cons first pieces =>
        refine ⟨(x :: first) :: pieces, last, ?_, fun right hright => ?_⟩
        · rw [hskip, hcut]
          rfl
        · rw [List.cons_append, hskip, hmore right hright]
          rfl

end Split

/-- The pieces of a value are the same up to blanks whether it is trimmed first or not. -/
theorem map_trim_splitOn_trim {c : Char} (hc : isBlank c = false) (cs : List Char) :
    (List.splitOn c (trim cs)).map trim = (List.splitOn c cs).map trim := by
  obtain ⟨left, right, hcs, hleft, hright⟩ := exists_blank_trim cs
  have hmark : ∀ {blank : List Char}, (∀ b ∈ blank, isBlank b = true) → c ∉ blank := by
    intro blank hblank hmem
    exact Bool.false_ne_true (hc ▸ hblank c hmem)
  obtain ⟨pieces, last, hcut, hbehind⟩ := exists_splitOn_append_right c (trim cs)
  obtain ⟨first, others, hcut', hfront⟩ := exists_splitOn_append_left c (trim cs ++ right)
  calc (List.splitOn c (trim cs)).map trim
      = (List.splitOn c (trim cs ++ right)).map trim := by
        rw [hcut, hbehind right (hmark hright), List.map_append, List.map_append,
          List.map_singleton, List.map_singleton, trim_append_right hright]
    _ = (List.splitOn c (left ++ (trim cs ++ right))).map trim := by
        rw [hcut', hfront left (hmark hleft), List.map_cons, List.map_cons,
          trim_append_left hleft]
    _ = (List.splitOn c cs).map trim := by rw [← hcs]

/-! ## Lower case -/

theorem toLower_cases (c : Char) :
    c.toLower = c ∨ 65 ≤ c.toNat ∧ c.toNat ≤ 90 ∧ c.toLower.toNat = c.toNat + 32 := by
  by_cases h : c.val ≥ 'A'.val ∧ c.val ≤ 'Z'.val
  · have hlow : 65 ≤ c.toNat := h.1
    have hhigh : c.toNat ≤ 90 := h.2
    have hlower : c.toLower.val = c.val + ('a'.val - 'A'.val) := congrArg Char.val (dif_pos h)
    have hsum : c.toLower.toNat = (c.toNat + 32) % UInt32.size := congrArg UInt32.toNat hlower
    rw [Nat.mod_eq_of_lt (by rw [UInt32.size]; omega)] at hsum
    exact Or.inr ⟨hlow, hhigh, hsum⟩
  · exact Or.inl (dif_neg h)

/-- A character before the letters is the lower case of itself only. -/
theorem eq_of_toLower {c d : Char} (hd : d.toNat < 65) (h : c.toLower = d) : c = d := by
  rcases toLower_cases c with hsame | ⟨hlow, -, hsum⟩
  · exact hsame.symm.trans h
  · rw [h] at hsum
    omega

/-- No blank is a letter. -/
theorem isBlank_toLower (c : Char) : isBlank c.toLower = isBlank c := by
  have hletter : ∀ d : Char, (65 ≤ d.toNat ∧ d.toNat ≤ 90) ∨ (97 ≤ d.toNat ∧ d.toNat ≤ 122) →
      isBlank d = false := by
    intro d hd
    simp only [isBlank, Bool.or_eq_false_iff, Bool.and_eq_false_iff, decide_eq_false_iff_not,
      beq_eq_false_iff_ne]
    omega
  rcases toLower_cases c with h | ⟨hlow, hhigh, hsum⟩
  · rw [h]
  · rw [hletter c (Or.inl ⟨hlow, hhigh⟩), hletter c.toLower (Or.inr ⟨by omega, by omega⟩)]

theorem toLower_beq_comma (c : Char) : (c.toLower == ',') = (c == ',') := by
  rcases toLower_cases c with h | ⟨hlow, hhigh, hsum⟩
  · rw [h]
  · have hcomma : (',').toNat = 44 := rfl
    have hneither : ∀ d : Char, 44 < d.toNat → (d == ',') = false := by
      intro d hd
      refine beq_eq_false_iff_ne.mpr ?_
      rintro rfl
      omega
    rw [hneither c (by omega), hneither c.toLower (by omega)]

theorem lower_trim (cs : List Char) : lower (trim cs) = trim (lower cs) := by
  have hblank : isBlank ∘ Char.toLower = isBlank := funext isBlank_toLower
  have hdrop : ∀ xs, lower (xs.dropWhile isBlank) = (lower xs).dropWhile isBlank := by
    intro xs
    rw [lower, lower, List.dropWhile_map, hblank]
  have hreverse : ∀ xs, lower xs.reverse = (lower xs).reverse := fun xs => List.map_reverse
  rw [trim, hreverse, hdrop, hreverse, hdrop, trim]

end ContentServer.Text
