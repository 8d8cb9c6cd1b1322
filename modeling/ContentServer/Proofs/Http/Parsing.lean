import ContentServer.Http.Request
import Mathlib.Data.List.TakeWhile

/-!
# Heads that arrive bit by bit

A head is parsed each time when more of it has arrived, so what the parser says about a part of
the input has to fit what it says about more of it.

* A request or a fault that has been found stays when more arrives (`parse_append`).  The limit on
  the length of a head is where this could go wrong: a head that is too long is refused with the
  same fault whether its end is in sight or not.
* As long as a byte of a head is missing there is no request and no fault (`parse_take`).

Both are about a buffer without line breaks in front.  A session drops these as they come, and
`parse_drop_blank` says that this changes nothing.
-/

namespace ContentServer.Request

/-! ## Line breaks in front of a head -/

@[simp] theorem blankLength_cons_of_pos {b : UInt8} (hb : isLineBreak b = true) (bs : Bytes) :
    blankLength (b :: bs) = blankLength bs + 1 := by
  rw [blankLength, List.takeWhile_cons_of_pos hb, List.length_cons, blankLength]

@[simp] theorem blankLength_cons_of_neg {b : UInt8} (hb : isLineBreak b = false) (bs : Bytes) :
    blankLength (b :: bs) = 0 := by
  rw [blankLength, List.takeWhile_cons_of_neg (by simp [hb]), List.length_nil]

/-- Line breaks that stand in front are all counted. -/
theorem blankLength_append {blank : Bytes} (h : ∀ b ∈ blank, isLineBreak b = true) (rest : Bytes) :
    blankLength (blank ++ rest) = blank.length + blankLength rest := by
  rw [blankLength, List.takeWhile_append_of_pos h, List.length_append, blankLength]

/-- What the count takes are line breaks. -/
theorem isLineBreak_of_mem_take {buffer : Bytes} {b : UInt8}
    (h : b ∈ buffer.take (blankLength buffer)) : isLineBreak b = true := by
  rw [blankLength, ← List.prefix_iff_eq_take.mp (List.takeWhile_prefix isLineBreak)] at h
  exact List.mem_takeWhile_imp h

/-- Behind the line breaks there are no others. -/
theorem blankLength_drop (buffer : Bytes) :
    blankLength (buffer.drop (blankLength buffer)) = 0 := by
  induction buffer with
  | nil => rfl
  | cons b bs ih =>
    cases hb : isLineBreak b with
    | true => rw [blankLength_cons_of_pos hb, List.drop_succ_cons, ih]
    | false => rw [blankLength_cons_of_neg hb, List.drop_zero, blankLength_cons_of_neg hb]

/-- Once something else has arrived, no more line breaks come in front of a head. -/
theorem blankLength_append_of_lt {buffer : Bytes} (h : blankLength buffer < buffer.length)
    (more : Bytes) : blankLength (buffer ++ more) = blankLength buffer := by
  induction buffer with
  | nil => exact absurd h (Nat.lt_irrefl 0)
  | cons b bs ih =>
    cases hb : isLineBreak b with
    | true =>
      rw [blankLength_cons_of_pos hb, List.length_cons] at h
      rw [List.cons_append, blankLength_cons_of_pos hb, blankLength_cons_of_pos hb, ih (by omega)]
    | false => rw [List.cons_append, blankLength_cons_of_neg hb, blankLength_cons_of_neg hb]

/-- As long as only line breaks have arrived, the count goes on. -/
theorem blankLength_append_of_eq {buffer : Bytes} (h : blankLength buffer = buffer.length)
    (more : Bytes) : blankLength (buffer ++ more) = buffer.length + blankLength more := by
  refine blankLength_append (fun b hb => ?_) more
  have hall : b ∈ buffer.take (blankLength buffer) := by rwa [h, List.take_length]
  exact isLineBreak_of_mem_take hall

/-! ## What the parser has found -/

/-- How a request is found: its head ends somewhere behind the line breaks, is not too long, and
holds a text that makes the request. -/
theorem parse_eq_some_iff {maxBody : Nat} {buffer : Bytes} {r : Request} {n : Nat} :
    parse maxBody buffer = .ok (some (r, n)) ↔
      ∃ i head, Text.firstIndex? headEnd (buffer.drop (blankLength buffer)) = some i ∧
        i + headEnd.length ≤ maxHead ∧
        Bytes.text? ((buffer.drop (blankLength buffer)).take i) = some head ∧
        ofHead maxBody head = .ok r ∧ n = blankLength buffer + (i + headEnd.length) := by
  constructor
  · intro h
    simp only [parse] at h
    split at h
    · split at h <;> cases h
    · next i hi =>
      split at h
      · cases h
      · next hshort =>
        split at h
        · cases h
        · next head htext =>
          cases hhead : ofHead maxBody head with
          | error e => rw [hhead] at h; cases h
          | ok r' =>
            rw [hhead] at h
            cases h
            exact ⟨i, head, hi, Nat.le_of_not_lt hshort, htext, hhead, rfl⟩
  · rintro ⟨i, head, hi, hshort, htext, hhead, rfl⟩
    simp only [parse, hi, if_neg (Nat.not_lt_of_le hshort), htext, hhead]
    rfl

/-- Dropping the line breaks in front changes only the number of bytes. -/
theorem parse_drop_blank {maxBody : Nat} {buffer : Bytes} {r : Request} {n : Nat}
    (h : parse maxBody buffer = .ok (some (r, n))) :
    parse maxBody (buffer.drop (blankLength buffer)) = .ok (some (r, n - blankLength buffer)) := by
  obtain ⟨i, head, hi, hshort, htext, hhead, rfl⟩ := parse_eq_some_iff.mp h
  refine parse_eq_some_iff.mpr ⟨i, head, ?_, hshort, ?_, hhead, ?_⟩
  · rw [blankLength_drop, List.drop_zero, hi]
  · rw [blankLength_drop, List.drop_zero, htext]
  · rw [blankLength_drop]
    omega

/-! ## More of a head arrives -/

/-- A buffer that makes the parser say something is not empty. -/
theorem length_pos_of_parse {maxBody : Nat} {buffer : Bytes}
    (h : parse maxBody buffer ≠ .ok none) : 0 < buffer.length := by
  cases buffer with
  | nil => exact absurd rfl h
  | cons b bs => exact Nat.succ_pos _

theorem blankLength_append_of_parse {maxBody : Nat} {buffer : Bytes}
    (hblank : blankLength buffer = 0) (h : parse maxBody buffer ≠ .ok none) (more : Bytes) :
    blankLength (buffer ++ more) = 0 := by
  have hlt : blankLength buffer < buffer.length := hblank ▸ length_pos_of_parse h
  rw [blankLength_append_of_lt hlt, hblank]

/-- What the parser has found it finds again when more has arrived. -/
theorem parse_append {maxBody : Nat} {buffer : Bytes} (hblank : blankLength buffer = 0)
    (h : parse maxBody buffer ≠ .ok none) (more : Bytes) :
    parse maxBody (buffer ++ more) = parse maxBody buffer := by
  have hblank' := blankLength_append_of_parse hblank h more
  simp only [parse, hblank, hblank', List.drop_zero] at h ⊢
  cases hi : Text.firstIndex? headEnd buffer with
  | some i =>
    have hfit := Text.firstIndex?_add_length_le hi
    have hsame : (buffer ++ more).take i = buffer.take i :=
      List.take_append_of_le_length (by omega)
    rw [Text.firstIndex?_append hi more]
    dsimp only
    rw [hsame]
  | none =>
    rw [hi] at h
    dsimp only at h ⊢
    -- The head is too long already, wherever it ends.
    have hlong : buffer.length > maxHead := by
      by_contra hshort
      rw [if_neg hshort] at h
      exact h rfl
    rw [if_pos hlong]
    cases hj : Text.firstIndex? headEnd (buffer ++ more) with
    | none =>
      dsimp only
      rw [if_pos (by rw [List.length_append]; omega)]
    | some j =>
      have hlate := Text.lt_of_firstIndex?_append hi hj
      dsimp only
      rw [if_pos (by omega)]

/-! ## A head that has not arrived in full -/

/-- Some first bytes of a head have no line breaks in front if the head has none. -/
theorem blankLength_take {head : Bytes} (hblank : blankLength head = 0) (k : Nat) :
    blankLength (head.take k) = 0 := by
  cases k with
  | zero => rfl
  | succ k =>
    cases head with
    | nil => rfl
    | cons b bs =>
      cases hb : isLineBreak b with
      | true => rw [blankLength_cons_of_pos hb] at hblank; cases hblank
      | false => rw [List.take_succ_cons, blankLength_cons_of_neg hb]

/-- The parser finds nothing in a part of a head. -/
theorem parse_take {maxBody : Nat} {head : Bytes} {r : Request} (hblank : blankLength head = 0)
    (h : parse maxBody head = .ok (some (r, head.length))) {k : Nat} (hk : k < head.length) :
    parse maxBody (head.take k) = .ok none := by
  obtain ⟨i, text, hi, hshort, -, -, hlen⟩ := parse_eq_some_iff.mp h
  rw [hblank, List.drop_zero] at hi
  simp only [parse, blankLength_take hblank, List.drop_zero]
  cases hj : Text.firstIndex? headEnd (head.take k) with
  | none =>
    dsimp only
    rw [if_neg (by rw [List.length_take]; omega)]
  | some j =>
    -- An end in sight would be the end of the whole head.
    have hfit := Text.firstIndex?_add_length_le hj
    have hsame := Text.firstIndex?_append hj (head.drop k)
    rw [List.take_append_drop, hi, Option.some.injEq] at hsame
    rw [List.length_take] at hfit
    omega

end ContentServer.Request
