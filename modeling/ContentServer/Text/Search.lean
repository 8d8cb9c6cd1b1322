/-!
# Searching and cutting sequences

Heads of requests, paths, documents and console input are all read by looking for a mark in a
sequence and cutting there.  Where the mark is a single element, `List.splitOn` cuts at all of them.
This module has the other ways in which that is done.

* `firstIndex? pat xs` is the place of the first occurrence of `pat` in `xs`, be these bytes or
  characters.
* `replaceFirst` puts other elements in place of the first occurrence.
* `splitLines` cuts a text at every carriage return followed by a line feed.

`firstIndex?_eq_some_iff` and `firstIndex?_eq_none_iff` say that the search finds the first
occurrence and only that.
-/

namespace ContentServer.Text

/-! ## The first occurrence -/

section Search

variable {α : Type} [BEq α]

/-- The place of the first occurrence of `pat`, counted from `i`. -/
def firstIndexFrom (pat : List α) (i : Nat) : List α → Option Nat
  | [] => if pat.isEmpty then some i else none
  | x :: xs => if pat.isPrefixOf (x :: xs) then some i else firstIndexFrom pat (i + 1) xs

/-- The place of the first occurrence of `pat` in a list. -/
def firstIndex? (pat xs : List α) : Option Nat := firstIndexFrom pat 0 xs

/-- Whether `pat` occurs in a list. -/
def occursIn (pat xs : List α) : Bool := (firstIndex? pat xs).isSome

/-- The list with `new` in place of the first occurrence of `pat`. -/
def replaceFirst (pat new xs : List α) : List α :=
  match firstIndex? pat xs with
  | none => xs
  | some i => xs.take i ++ (new ++ xs.drop (i + pat.length))

variable [LawfulBEq α]

/-- A search that starts counting at `i` finds the place `k` steps later iff the pattern stands
there and nowhere before. -/
theorem firstIndexFrom_eq_some_iff (pat : List α) {i j : Nat} (xs : List α) :
    firstIndexFrom pat i xs = some j ↔
      ∃ k, j = i + k ∧ k ≤ xs.length ∧ pat <+: xs.drop k ∧ ∀ m < k, ¬ pat <+: xs.drop m := by
  induction xs generalizing i with
  | nil =>
    cases pat with
    | nil =>
      simp only [firstIndexFrom, List.isEmpty_nil, if_true, Option.some.injEq]
      constructor
      · rintro rfl
        exact ⟨0, by simp⟩
      · rintro ⟨k, rfl, hk, _, _⟩
        simp only [List.length_nil, Nat.le_zero] at hk
        simp [hk]
    | cons a pat =>
      simp [firstIndexFrom]
  | cons x xs ih =>
    by_cases h : pat <+: x :: xs
    · rw [firstIndexFrom, if_pos (List.isPrefixOf_iff_prefix.mpr h), Option.some.injEq]
      constructor
      · rintro rfl
        exact ⟨0, by simp [h]⟩
      · rintro ⟨k, rfl, _, _, hm⟩
        cases k with
        | zero => simp
        | succ k => exact absurd h (hm 0 (by omega))
    · rw [firstIndexFrom, if_neg (fun hp => h (List.isPrefixOf_iff_prefix.mp hp)), ih]
      constructor
      · rintro ⟨k, rfl, hk, hp, hm⟩
        refine ⟨k + 1, by omega, by simp only [List.length_cons]; omega, hp, fun m hlt => ?_⟩
        cases m with
        | zero => exact h
        | succ m => exact hm m (by omega)
      · rintro ⟨k, rfl, hk, hp, hm⟩
        cases k with
        | zero => exact absurd hp h
        | succ k =>
          exact ⟨k, by omega, by simp only [List.length_cons] at hk; omega, hp,
            fun m hlt => hm (m + 1) (by omega)⟩

/-- The search finds a place iff the pattern stands there and at no earlier place. -/
theorem firstIndex?_eq_some_iff (pat xs : List α) {i : Nat} :
    firstIndex? pat xs = some i ↔
      i ≤ xs.length ∧ pat <+: xs.drop i ∧ ∀ m < i, ¬ pat <+: xs.drop m := by
  rw [firstIndex?, firstIndexFrom_eq_some_iff]
  constructor
  · rintro ⟨k, rfl, h⟩
    simpa using h
  · intro h
    exact ⟨i, by simp, h⟩

/-- What the search finds fits into the list. -/
theorem firstIndex?_add_length_le {pat xs : List α} {i : Nat} (h : firstIndex? pat xs = some i) :
    i + pat.length ≤ xs.length := by
  obtain ⟨hi, hp, _⟩ := (firstIndex?_eq_some_iff pat xs).mp h
  have := hp.length_le
  rw [List.length_drop] at this
  omega

/-- A place that is found stays the first one when the list gets longer. -/
theorem firstIndex?_append {pat xs : List α} {i : Nat} (h : firstIndex? pat xs = some i)
    (ys : List α) : firstIndex? pat (xs ++ ys) = some i := by
  have hfit := firstIndex?_add_length_le h
  obtain ⟨hi, hp, hm⟩ := (firstIndex?_eq_some_iff pat xs).mp h
  rw [firstIndex?_eq_some_iff]
  refine ⟨by rw [List.length_append]; omega, ?_, fun m hlt hpm => hm m hlt ?_⟩
  · rw [List.drop_append_of_le_length hi]
    exact hp.trans (List.prefix_append _ ys)
  · rw [List.drop_append_of_le_length (by omega)] at hpm
    refine List.prefix_of_prefix_length_le hpm (List.prefix_append _ ys) ?_
    rw [List.length_drop]
    omega

theorem firstIndexFrom_eq_none_iff (pat : List α) (i : Nat) (xs : List α) :
    firstIndexFrom pat i xs = none ↔ ¬ pat <:+: xs := by
  induction xs generalizing i with
  | nil => cases pat <;> simp [firstIndexFrom]
  | cons x xs ih =>
    by_cases h : pat <+: x :: xs
    · rw [firstIndexFrom, if_pos (List.isPrefixOf_iff_prefix.mpr h)]
      simp [h.isInfix]
    · rw [firstIndexFrom, if_neg (fun hp => h (List.isPrefixOf_iff_prefix.mp hp)), ih,
        List.infix_cons_iff]
      simp [h]

/-- The search finds nothing iff the pattern stands nowhere. -/
theorem firstIndex?_eq_none_iff (pat xs : List α) :
    firstIndex? pat xs = none ↔ ¬ pat <:+: xs :=
  firstIndexFrom_eq_none_iff pat 0 xs

/-- What is found only in the longer list ends in what was added. -/
theorem lt_of_firstIndex?_append {pat xs ys : List α} {i : Nat} (h : firstIndex? pat xs = none)
    (hi : firstIndex? pat (xs ++ ys) = some i) : xs.length < i + pat.length := by
  have hno := (firstIndex?_eq_none_iff pat xs).mp h
  obtain ⟨_, hp, _⟩ := (firstIndex?_eq_some_iff pat (xs ++ ys)).mp hi
  refine Nat.lt_of_not_le fun hle => hno ?_
  rw [List.drop_append_of_le_length (by omega)] at hp
  have hp' : pat <+: xs.drop i := by
    refine List.prefix_of_prefix_length_le hp (List.prefix_append _ ys) ?_
    rw [List.length_drop]
    omega
  exact hp'.isInfix.trans (List.drop_suffix i xs).isInfix

/-- A pattern occurs in a list iff it stands somewhere in it. -/
theorem occursIn_iff (pat xs : List α) : occursIn pat xs = true ↔ pat <:+: xs := by
  cases h : firstIndex? pat xs with
  | none => simpa [occursIn, h] using (firstIndex?_eq_none_iff pat xs).mp h
  | some i =>
    simp only [occursIn, h, Option.isSome_some, true_iff]
    obtain ⟨_, hp, _⟩ := (firstIndex?_eq_some_iff pat xs).mp h
    exact hp.isInfix.trans (List.drop_suffix i xs).isInfix

end Search

/-! ## Cutting into lines -/

/-- The pieces with `x` put in front of the first of them. -/
def consFirst {α : Type} (x : α) : List (List α) → List (List α)
  | [] => [[x]]
  | w :: ws => (x :: w) :: ws

/-- The lines of a text, cut at every carriage return that a line feed follows. -/
def splitLines : List Char → List (List Char)
  | [] => [[]]
  | '\r' :: '\n' :: cs => [] :: splitLines cs
  | c :: cs => consFirst c (splitLines cs)

theorem consFirst_ne_nil {α : Type} (x : α) (ws : List (List α)) : consFirst x ws ≠ [] := by
  cases ws <;> simp [consFirst]

theorem splitLines_ne_nil (cs : List Char) : splitLines cs ≠ [] := by
  fun_cases splitLines cs <;> simp [consFirst_ne_nil]

example : firstIndex? "aab".toList "aaab".toList = some 1 := by decide
example : firstIndex? ([] : List Nat) [1] = some 0 := by decide
example : replaceFirst "b".toList "xy".toList "abab".toList = "axyab".toList := by decide
example : splitLines "a\r\n\rb\r\n".toList = [['a'], ['\r', 'b'], []] := by decide

end ContentServer.Text
