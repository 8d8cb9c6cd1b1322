import ContentServer.Proofs.Http.Parsing

/-!
# Verdicts on what has arrived

The parser has three verdicts on a buffer: a request, a fault, or that more has to come.  More bytes
can only change the last one, with one exception (`verdict_stays`).

The exception is the fault that a head is too long.  In a head that has not ended the line breaks
in front of it count, too, and in one that has ended they do not.  So this fault is final if what
stands behind the line breaks reaches the limit, and it is not if a few bytes more would end a head
within the limit (`headTooLarge_append`).
-/

namespace ContentServer.Request

variable {maxBody : Nat} {buffer : Bytes} {r : Request} {n : Nat}

/-! ## Requests -/

/-- Where a head has ended, there is more than line breaks. -/
theorem blankLength_lt_of_found {i : Nat}
    (hi : Text.firstIndex? headEnd (buffer.drop (blankLength buffer)) = some i) :
    blankLength buffer < buffer.length := by
  have hfit := Text.firstIndex?_add_length_le hi
  have hend : headEnd.length = 4 := rfl
  rw [List.length_drop] at hfit
  omega

/-- Once something else than line breaks has arrived, they are dropped as before. -/
theorem drop_blank_append (hlt : blankLength buffer < buffer.length) (more : Bytes) :
    (buffer ++ more).drop (blankLength (buffer ++ more))
      = buffer.drop (blankLength buffer) ++ more := by
  rw [blankLength_append_of_lt hlt, List.drop_append_of_le_length (Nat.le_of_lt hlt)]

/-- A request that is found is found again when more has arrived, also behind line breaks. -/
theorem parse_append_of_request (h : parse maxBody buffer = .ok (some (r, n))) (more : Bytes) :
    parse maxBody (buffer ++ more) = .ok (some (r, n)) := by
  obtain ⟨i, head, hi, hshort, htext, hhead, rfl⟩ := parse_eq_some_iff.mp h
  have hlt := blankLength_lt_of_found hi
  have hfit := Text.firstIndex?_add_length_le hi
  refine parse_eq_some_iff.mpr ⟨i, head, ?_, hshort, ?_, hhead, ?_⟩
  · rw [drop_blank_append hlt]
    exact Text.firstIndex?_append hi more
  · rw [drop_blank_append hlt, List.take_append_of_le_length (by omega)]
    exact htext
  · rw [blankLength_append_of_lt hlt]

/-- What the parser says stays when more arrives.  A request stays in any case, with its length, and
it fits into what has arrived.  A fault stays if no line break comes first, and then nothing but the
verdict that more has to come can change. -/
theorem verdict_stays (maxBody : Nat) (buffer more : Bytes) :
    (∀ r n, parse maxBody buffer = .ok (some (r, n)) →
      parse maxBody (buffer ++ more) = .ok (some (r, n)) ∧ n ≤ buffer.length) ∧
    ((∀ b ∈ buffer.head?, isLineBreak b = false) →
      (∀ cause, parse maxBody buffer = .error cause →
        parse maxBody (buffer ++ more) = .error cause) ∧
      (parse maxBody (buffer ++ more) ≠ parse maxBody buffer →
        parse maxBody buffer = .ok none)) := by
  constructor
  · intro r n h
    exact ⟨parse_append_of_request h more, (parse_consumed h).2⟩
  · intro hfirst
    have hblank : blankLength buffer = 0 := by
      cases buffer with
      | nil => rfl
      | cons b bs => exact blankLength_cons_of_neg (hfirst b rfl) bs
    constructor
    · intro cause h
      have hsays : parse maxBody buffer ≠ .ok none := by
        rw [h]
        intro hnone
        cases hnone
      rw [parse_append hblank hsays, h]
    · intro hchanges
      by_contra hsays
      exact hchanges (parse_append hblank hsays more)

/-! ## Heads that are too long -/

theorem readVersion_ne_headTooLarge (word : List Char) :
    readVersion word ≠ .error .headTooLarge := by
  intro h
  rw [readVersion] at h
  split at h
  · cases h
  · split at h
    · cases h
    · split at h <;> cases h

theorem ofRequestLine_ne_headTooLarge (line : List Char) :
    ofRequestLine line ≠ .error .headTooLarge := by
  intro h
  rw [ofRequestLine] at h
  split at h
  · next method target version hsplit =>
    split at h
    · cases h
    · split at h
      · cases h
      · cases hversion : readVersion version with
        | ok v =>
          rw [hversion] at h
          cases h
        | error cause =>
          rw [hversion] at h
          cases h
          exact readVersion_ne_headTooLarge version hversion
  · cases h

theorem addField_ne_headTooLarge (maxBody : Nat) (r : Request) (line : List Char) :
    addField maxBody r line ≠ .error .headTooLarge := by
  rw [addField]
  cases Field.ofLine? line with
  | none => simp
  | some field =>
    dsimp only
    cases FieldName.ofText field.name with
    | contentLength =>
      cases Text.natural? lengthBound field.value with
      | none => simp
      | some n =>
        dsimp only
        split <;> simp
    | host | userAgent | connection | acceptEncoding | transferEncoding | other => simp

theorem addFields_ne_headTooLarge (maxBody : Nat) (r : Request) (lines : List (List Char)) :
    addFields maxBody r lines ≠ .error .headTooLarge := by
  induction lines generalizing r with
  | nil =>
    intro h
    cases h
  | cons line lines ih =>
    intro h
    rw [addFields] at h
    cases hfirst : addField maxBody r line with
    | ok next =>
      rw [hfirst] at h
      exact ih next h
    | error cause =>
      rw [hfirst] at h
      cases h
      exact addField_ne_headTooLarge maxBody r line hfirst

/-- Nothing that stands in a head makes it too long. -/
theorem ofHead_ne_headTooLarge (maxBody : Nat) (head : String) :
    ofHead maxBody head ≠ .error .headTooLarge := by
  intro h
  rw [ofHead] at h
  split at h
  · cases h
  · next line lines hlines =>
    cases hfirst : ofRequestLine line with
    | ok r =>
      rw [hfirst] at h
      exact addFields_ne_headTooLarge maxBody r lines h
    | error cause =>
      rw [hfirst] at h
      cases h
      exact ofRequestLine_ne_headTooLarge line hfirst

/-- A head is too long if it has ended behind the limit, or if it has not ended and the buffer with
the line breaks is longer than the limit. -/
theorem parse_eq_headTooLarge_iff :
    parse maxBody buffer = .error .headTooLarge ↔
      maxHead < buffer.length ∧
        ∀ i, Text.firstIndex? headEnd (buffer.drop (blankLength buffer)) = some i →
          maxHead < i + headEnd.length := by
  rw [parse]
  cases hi : Text.firstIndex? headEnd (buffer.drop (blankLength buffer)) with
  | none => simp
  | some i =>
    have hfit := Text.firstIndex?_add_length_le hi
    rw [List.length_drop] at hfit
    dsimp only
    by_cases hlong : i + headEnd.length > maxHead
    · rw [if_pos hlong]
      refine iff_of_true rfl ⟨by omega, ?_⟩
      rintro _ ⟨⟩
      exact hlong
    · rw [if_neg hlong]
      refine iff_of_false ?_ fun h => hlong (h.2 i rfl)
      intro h
      split at h
      · cases h
      · next head htext =>
        cases hhead : ofHead maxBody head with
        | ok r =>
          rw [hhead] at h
          cases h
        | error cause =>
          rw [hhead] at h
          cases h
          exact ofHead_ne_headTooLarge maxBody head hhead

/-- What starts with something else brings in no line breaks in front. -/
theorem blankLength_append_of_eq_zero {more : Bytes} (h : blankLength more = 0) (buffer : Bytes) :
    blankLength (buffer ++ more) = blankLength buffer := by
  rcases Nat.lt_or_eq_of_le (blankLength_le buffer) with hlt | heq
  · exact blankLength_append_of_lt hlt more
  · rw [blankLength_append_of_eq heq, h, heq, Nat.add_zero]

/-- A head that is too long stays so if what stands behind the line breaks reaches the limit.  If it
stays some bytes below, something may come that ends a head within the limit. -/
theorem headTooLarge_append (h : parse maxBody buffer = .error .headTooLarge) :
    (maxHead ≤ (buffer.drop (blankLength buffer)).length →
      ∀ more, parse maxBody (buffer ++ more) = .error .headTooLarge) ∧
    ((buffer.drop (blankLength buffer)).length + headEnd.length < maxHead →
      ∃ more, parse maxBody (buffer ++ more) ≠ .error .headTooLarge) := by
  obtain ⟨hlong, hended⟩ := parse_eq_headTooLarge_iff.mp h
  constructor
  · intro hreach more
    have hlt : blankLength buffer < buffer.length := by
      have hmax : maxHead = 8192 := rfl
      rw [List.length_drop] at hreach
      omega
    refine parse_eq_headTooLarge_iff.mpr ⟨by rw [List.length_append]; omega, fun i hi => ?_⟩
    rw [drop_blank_append hlt] at hi
    cases hj : Text.firstIndex? headEnd (buffer.drop (blankLength buffer)) with
    | none =>
      have hlate := Text.lt_of_firstIndex?_append hj hi
      omega
    | some j =>
      rw [Text.firstIndex?_append hj more, Option.some.injEq] at hi
      exact hi ▸ hended j hj
  · intro hshort
    -- The first byte makes sure that there is a head, and the others end it.
    let more : Bytes := 65 :: headEnd
    have hdrop : (buffer ++ more).drop (blankLength (buffer ++ more))
        = buffer.drop (blankLength buffer) ++ more := by
      rw [blankLength_append_of_eq_zero rfl,
        List.drop_append_of_le_length (blankLength_le buffer)]
    refine ⟨more, fun htoo => ?_⟩
    have hlimit := (parse_eq_headTooLarge_iff.mp htoo).2
    rw [hdrop] at hlimit
    cases hi : Text.firstIndex? headEnd (buffer.drop (blankLength buffer) ++ more) with
    | none =>
      refine (Text.firstIndex?_eq_none_iff _ _).mp hi ?_
      exact ⟨buffer.drop (blankLength buffer) ++ [65], [], by simp [more]⟩
    | some i =>
      have hfit := Text.firstIndex?_add_length_le hi
      have hlate := hlimit i hi
      have hmore : more.length = headEnd.length + 1 := rfl
      rw [List.length_append] at hfit
      omega

/-- A line that is longer than a head may be is refused, also when the head ends. -/
theorem headTooLarge_of_a_long_line :
    let line : Bytes := List.replicate 8193 97
    parse 1048576 line = .error .headTooLarge ∧
      parse 1048576 (line ++ headEnd) = .error .headTooLarge := by
  intro line
  have hlength : line.length = 8193 := List.length_replicate
  have hblank : blankLength line = 0 := blankLength_cons_of_neg rfl (List.replicate 8192 97)
  have hnone : Text.firstIndex? headEnd line = none := by
    refine (Text.firstIndex?_eq_none_iff headEnd line).mpr fun hend => ?_
    exact absurd (List.eq_of_mem_replicate (hend.subset List.mem_cons_self)) (by decide)
  have hparse : parse 1048576 line = .error .headTooLarge := by
    refine parse_eq_headTooLarge_iff.mpr ⟨by rw [hlength]; decide, fun i hi => ?_⟩
    rw [hblank, List.drop_zero, hnone] at hi
    cases hi
  refine ⟨hparse, (headTooLarge_append hparse).1 ?_ headEnd⟩
  rw [hblank, List.drop_zero, hlength]
  decide

/-- Too many line breaks are refused, and with a request behind them they are not. -/
theorem headTooLarge_withdrawn :
    let blank : Bytes := List.replicate 8193 13
    let head := Bytes.ofText "GET / HTTP/1.1\r\n\r\n"
    parse 1048576 blank = .error .headTooLarge ∧
      parse 1048576 (blank ++ head)
        = .ok (some ({ method := .get, target := "/", version := .v11 }, 8211)) := by
  have hparse : parse 1048576 (Bytes.ofText "GET / HTTP/1.1\r\n\r\n")
      = .ok (some ({ method := .get, target := "/", version := .v11 }, 18)) := rfl
  intro blank head
  have hbreak : ∀ b ∈ blank, isLineBreak b = true := by
    intro b hb
    rw [List.eq_of_mem_replicate hb]
    rfl
  have hlength : blank.length = 8193 := List.length_replicate
  have hblank : ∀ rest, blankLength (blank ++ rest) = blank.length + blankLength rest :=
    blankLength_append hbreak
  constructor
  · have hall := hblank []
    rw [List.append_nil] at hall
    refine parse_eq_headTooLarge_iff.mpr ⟨by rw [hlength]; decide, fun i hi => ?_⟩
    rw [hall, List.drop_eq_nil_of_le (Nat.le_add_right _ _)] at hi
    cases hi
  · obtain ⟨i, text, hi, hshort, htext, hhead, hcount⟩ := parse_eq_some_iff.mp hparse
    have hnone : blankLength head = 0 := rfl
    have hcount : 18 = blankLength head + (i + headEnd.length) := hcount
    have hdrop : (blank ++ head).drop (blankLength (blank ++ head))
        = head.drop (blankLength head) := by
      rw [hblank, hnone, Nat.add_zero, List.drop_left, List.drop_zero]
    refine parse_eq_some_iff.mpr ⟨i, text, ?_, hshort, ?_, hhead, ?_⟩
    · rw [hdrop, hi]
    · rw [hdrop, htext]
    · rw [hblank, hlength]
      omega

end ContentServer.Request
