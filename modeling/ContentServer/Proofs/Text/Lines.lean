import ContentServer.Bytes
import ContentServer.Http.Request
import Mathlib.Data.List.Infix

/-!
# Lines

The head of a message is a row of lines.  Between two lines stands a line end, a carriage return and
a line feed, and after the last line come two of them.  Lines may hold carriage returns and line
feeds as long as these do not make a line end.

* Cutting a text into lines gives lines without line ends, and putting the line ends back gives the
  text (`splitLines_eq_cons_iff`).
* A text has a line end where its bytes have one (`lineEnd_infix_of_bytes`), because no other
  character has these bytes.
* If no line is empty, the first empty line of a head is the one behind its last line
  (`firstIndex?_headEnd`).
-/

namespace ContentServer.Text

/-- A carriage return and a line feed. -/
def lineEnd : List Char := ['\r', '\n']

section Marks

variable {α : Type}

/-- Some lines, each after a mark. -/
def after (mark : List α) (lines : List (List α)) : List α := lines.flatMap fun l => mark ++ l

theorem intercalate_cons_eq_after (c : α) (w : List α) (ws : List (List α)) :
    [c].intercalate (w :: ws) = w ++ after [c] ws := by
  induction ws generalizing w with
  | nil => simp [after]
  | cons next ws ih =>
    rw [List.intercalate_cons_of_ne_nil (List.cons_ne_nil next ws), ih, after, after,
      List.flatMap_cons, List.append_assoc, List.append_assoc]

theorem flatMap_after {β : Type} (f : α → List β) (mark : List α) (lines : List (List α)) :
    (after mark lines).flatMap f = after (mark.flatMap f) (lines.map fun l => l.flatMap f) := by
  rw [after, after, List.flatMap_assoc, List.flatMap_map]
  simp only [List.flatMap_append]

/-- No mark of two elements begins in a line without it, where the first of the two comes next. -/
theorem not_prefix_of_line {cr lf : α} (hmark : lf ≠ cr) {x : α} {line : List α}
    (h : ¬ [cr, lf] <:+: x :: line) (rest : List α) :
    ¬ [cr, lf] <+: x :: (line ++ cr :: rest) := by
  rintro ⟨tail, htail⟩
  cases line with
  | nil =>
    injection htail with _ hrest
    injection hrest with hlf
    exact hmark hlf
  | cons y line =>
    injection htail with hcr hrest
    injection hrest with hlf
    refine h (List.IsPrefix.isInfix ⟨line, ?_⟩)
    rw [← hcr, ← hlf]
    rfl

/-- Two marks in a row do not begin in a part without the mark. -/
theorem not_infix_append {c : α} {xs ys : List α} (hxs : c ∉ xs)
    (hys : ¬ [c, c] <:+: ys) : ¬ [c, c] <:+: xs ++ ys := by
  induction xs with
  | nil => exact hys
  | cons x xs ih =>
    rw [List.mem_cons, not_or] at hxs
    rw [List.cons_append, List.infix_cons_iff, not_or]
    refine ⟨?_, ih hxs.2⟩
    rintro ⟨tail, htail⟩
    injection htail with hc
    exact hxs.1 hc

/-- A pattern without a mark at the front of a list ends before the mark. -/
theorem prefix_of_prefix_append_cons {c : α} {pat xs ys : List α} (h : c ∉ pat)
    (hp : pat <+: xs ++ c :: ys) : pat <+: xs := by
  rcases List.prefix_or_prefix_of_prefix hp (List.prefix_append xs (c :: ys)) with h' | ⟨rest, rfl⟩
  · exact h'
  · rw [List.prefix_append_right_inj] at hp
    cases rest with
    | nil => simp
    | cons d rest =>
      obtain ⟨tail, htail⟩ := hp
      injection htail with hd
      exact absurd (by simp [hd]) h

/-- A pattern without a mark does not go across the mark. -/
theorem infix_append_cons_iff {c : α} {pat xs ys : List α} (h : c ∉ pat) :
    pat <:+: xs ++ c :: ys ↔ pat <:+: xs ∨ pat <:+: ys := by
  constructor
  · intro hp
    induction xs with
    | nil =>
      rcases List.infix_cons_iff.mp hp with hfirst | hlater
      · exact Or.inl (prefix_of_prefix_append_cons h hfirst).isInfix
      · exact Or.inr hlater
    | cons x xs ih =>
      rw [List.cons_append, List.infix_cons_iff, ← List.cons_append] at hp
      rcases hp with hfirst | hlater
      · exact Or.inl (prefix_of_prefix_append_cons h hfirst).isInfix
      · exact (ih hlater).imp_left fun hxs => List.infix_cons_iff.mpr (Or.inr hxs)
  · rintro (hp | hp)
    · exact hp.trans (List.prefix_append _ _).isInfix
    · exact hp.trans ⟨xs ++ [c], [], by simp⟩

end Marks

/-! ## Cutting a text into lines -/

theorem splitLines_cons {c : Char} {cs : List Char} (h : ¬ lineEnd <+: c :: cs) :
    splitLines (c :: cs) = consFirst c (splitLines cs) := by
  rw [splitLines.eq_3]
  rintro rest rfl rfl
  exact h ⟨rest, rfl⟩

theorem splitLines_of_no_lineEnd {cs : List Char} (h : ¬ lineEnd <:+: cs) :
    splitLines cs = [cs] := by
  induction cs with
  | nil => rfl
  | cons c cs ih =>
    rw [List.infix_cons_iff, not_or] at h
    rw [splitLines_cons h.1, ih h.2]
    rfl

theorem splitLines_line {line : List Char} (h : ¬ lineEnd <:+: line) (rest : List Char) :
    splitLines (line ++ '\r' :: '\n' :: rest) = line :: splitLines rest := by
  induction line with
  | nil => rfl
  | cons c line ih =>
    have hline : ¬ lineEnd <:+: line := fun hl => h (List.infix_cons_iff.mpr (Or.inr hl))
    have hno : ¬ lineEnd <+: c :: (line ++ '\r' :: '\n' :: rest) :=
      not_prefix_of_line (by decide) h _
    rw [List.cons_append, splitLines_cons hno, ih hline]
    rfl

theorem splitLines_append_after {line : List Char} {lines : List (List Char)}
    (h : ∀ l ∈ line :: lines, ¬ lineEnd <:+: l) :
    splitLines (line ++ after lineEnd lines) = line :: lines := by
  induction lines generalizing line with
  | nil =>
    rw [after, List.flatMap_nil, List.append_nil]
    exact splitLines_of_no_lineEnd (h line List.mem_cons_self)
  | cons next lines ih =>
    have hrest : ∀ l ∈ next :: lines, ¬ lineEnd <:+: l := fun l hl =>
      h l (List.mem_cons_of_mem _ hl)
    have hsplit : line ++ after lineEnd (next :: lines)
        = line ++ '\r' :: '\n' :: (next ++ after lineEnd lines) := rfl
    rw [hsplit, splitLines_line (h line List.mem_cons_self), ih hrest]

/-- What a text is cut into: lines without line ends, and putting these back gives the text. -/
theorem lines_of_splitLines {cs line : List Char} {lines : List (List Char)}
    (h : splitLines cs = line :: lines) :
    cs = line ++ after lineEnd lines ∧ ∀ l ∈ line :: lines, ¬ lineEnd <:+: l := by
  fun_induction splitLines cs generalizing line lines with
  | case1 =>
    cases h
    refine ⟨rfl, fun l hl hend => ?_⟩
    rw [List.mem_singleton.mp hl] at hend
    exact absurd hend.length_le (by decide)
  | case2 cs ih =>
    obtain ⟨next, rest, hcut⟩ := List.exists_cons_of_ne_nil (splitLines_ne_nil cs)
    rw [hcut] at h
    cases h
    obtain ⟨rfl, hlines⟩ := ih hcut
    refine ⟨rfl, fun l hl hend => ?_⟩
    rcases List.mem_cons.mp hl with rfl | hl
    · exact absurd hend.length_le (by decide)
    · exact hlines l hl hend
  | case3 c cs hno ih =>
    obtain ⟨next, rest, hcut⟩ := List.exists_cons_of_ne_nil (splitLines_ne_nil cs)
    rw [hcut] at h
    cases h
    obtain ⟨rfl, hlines⟩ := ih hcut
    refine ⟨rfl, fun l hl hend => ?_⟩
    rcases List.mem_cons.mp hl with rfl | hl
    · rcases List.infix_cons_iff.mp hend with hfirst | hlater
      · obtain ⟨tail, htail⟩ := hfirst
        injection htail with hcr hrest
        rw [← hrest] at hno
        exact hno (tail ++ after lineEnd lines) hcr.symm rfl
      · exact hlines next List.mem_cons_self hlater
    · exact hlines l (List.mem_cons_of_mem _ hl) hend

/-- Cutting a text into lines undoes putting line ends between them. -/
theorem splitLines_eq_cons_iff {cs line : List Char} {lines : List (List Char)} :
    splitLines cs = line :: lines ↔
      cs = line ++ after lineEnd lines ∧ ∀ l ∈ line :: lines, ¬ lineEnd <:+: l := by
  constructor
  · exact lines_of_splitLines
  · rintro ⟨rfl, h⟩
    exact splitLines_append_after h

/-! ## Cutting at every mark -/

section Split

variable {α : Type} [BEq α] [LawfulBEq α] {c : α}

theorem not_mem_of_mem_splitOn {xs w : List α} (h : w ∈ List.splitOn c xs) : c ∉ w := by
  induction xs generalizing w with
  | nil =>
    rw [List.splitOn_nil, List.mem_singleton] at h
    rw [h]
    exact List.not_mem_nil
  | cons x xs ih =>
    obtain ⟨first, others, hcut⟩ := List.exists_cons_of_ne_nil (List.splitOn_ne_nil c xs)
    rw [List.splitOn_cons_eq_if_modifyHead, hcut] at h
    rw [hcut] at ih
    split at h
    · rcases List.mem_cons.mp h with rfl | h
      · exact List.not_mem_nil
      · exact ih h
    · next hx =>
      rcases List.mem_cons.mp h with rfl | h
      · rw [List.mem_cons, not_or]
        exact ⟨fun hc => hx (beq_iff_eq.mpr hc.symm), ih List.mem_cons_self⟩
      · exact ih (List.mem_cons_of_mem first h)

/-- Cutting at every mark undoes putting marks between pieces that have none. -/
theorem splitOn_eq_cons_iff {xs w : List α} {ws : List (List α)} :
    List.splitOn c xs = w :: ws ↔ xs = w ++ after [c] ws ∧ ∀ p ∈ w :: ws, c ∉ p := by
  rw [← intercalate_cons_eq_after]
  constructor
  · intro h
    rw [← h]
    exact ⟨(List.intercalate_splitOn c).symm, fun p => not_mem_of_mem_splitOn⟩
  · rintro ⟨rfl, h⟩
    exact List.splitOn_intercalate c h (List.cons_ne_nil w ws)

/-- The second piece of a list that is cut at every mark. -/
theorem getElem?_one_splitOn {xs piece : List α} :
    (List.splitOn c xs)[1]? = some piece ↔
      ∃ first rest, xs = first ++ c :: (piece ++ rest) ∧ c ∉ first ∧ c ∉ piece ∧
        rest.head? ∈ [none, some c] := by
  constructor
  · intro h
    obtain ⟨first, others, hcut⟩ := List.exists_cons_of_ne_nil (List.splitOn_ne_nil c xs)
    rw [hcut, List.getElem?_cons_succ] at h
    obtain ⟨more, rfl⟩ : ∃ more, others = piece :: more := by
      cases others with
      | nil => cases h
      | cons other more =>
        cases h
        exact ⟨more, rfl⟩
    obtain ⟨hxs, hpieces⟩ := splitOn_eq_cons_iff.mp hcut
    refine ⟨first, after [c] more, hxs, hpieces first List.mem_cons_self,
      hpieces piece (List.mem_cons_of_mem _ List.mem_cons_self), ?_⟩
    cases more <;> simp [after]
  · rintro ⟨first, rest, rfl, hfirst, hpiece, hrest⟩
    rw [List.splitOn_append_cons_self_of_not_mem hfirst, List.getElem?_cons_succ]
    cases rest with
    | nil =>
      rw [List.append_nil, List.splitOn_eq_singleton hpiece]
      rfl
    | cons d rest =>
      obtain rfl : d = c := by simpa using hrest
      rw [List.splitOn_append_cons_self_of_not_mem hpiece]
      rfl

theorem infix_of_mem_splitOn {xs w : List α} (h : w ∈ List.splitOn c xs) : w <:+: xs := by
  obtain ⟨first, others, hcut⟩ := List.exists_cons_of_ne_nil (List.splitOn_ne_nil c xs)
  obtain ⟨hxs, -⟩ := splitOn_eq_cons_iff.mp hcut
  rw [hcut] at h
  rcases List.mem_cons.mp h with rfl | h
  · exact hxs ▸ (List.prefix_append w _).isInfix
  · obtain ⟨before, behind, rfl⟩ := List.append_of_mem h
    refine ⟨first ++ after [c] before ++ [c], after [c] behind, ?_⟩
    rw [hxs]
    simp [after]

/-- A pattern without a mark occurs in a list if and only if it occurs in a piece of it. -/
theorem infix_iff_exists_mem_splitOn {pat xs : List α} (h : c ∉ pat) :
    pat <:+: xs ↔ ∃ piece ∈ List.splitOn c xs, pat <:+: piece := by
  obtain ⟨first, others, hcut⟩ := List.exists_cons_of_ne_nil (List.splitOn_ne_nil c xs)
  obtain ⟨rfl, -⟩ := splitOn_eq_cons_iff.mp hcut
  rw [hcut]
  clear hcut
  induction others generalizing first with
  | nil => simp [after]
  | cons next others ih =>
    have hrow : first ++ after [c] (next :: others)
        = first ++ c :: (next ++ after [c] others) := rfl
    rw [hrow, infix_append_cons_iff h, ih]
    simp

end Split

/-! ## Line ends in bytes -/

/-- A character is one byte below 128 or some bytes from 128 on. -/
theorem utf8EncodeChar_cases (c : Char) :
    (String.utf8EncodeChar c = [UInt8.ofNat c.toNat] ∧ c.toNat < 128) ∨
      ∀ b ∈ String.utf8EncodeChar c, 128 ≤ b.toNat := by
  rw [String.utf8EncodeChar]
  split
  · next h => exact Or.inl ⟨rfl, Nat.lt_succ_of_le h⟩
  · right
    split
    · simp
      omega
    · split
      · simp
        omega
      · simp
        omega

/-- A byte below 128 is the character of that number. -/
theorem eq_of_mem_utf8EncodeChar {c d : Char} (hd : d.toNat < 128)
    (h : UInt8.ofNat d.toNat ∈ String.utf8EncodeChar c) : c = d := by
  have hbyte : (UInt8.ofNat d.toNat).toNat = d.toNat := by
    rw [UInt8.toNat_ofNat']
    exact Nat.mod_eq_of_lt (by omega)
  rcases utf8EncodeChar_cases c with ⟨hc, hlow⟩ | hhigh
  · rw [hc, List.mem_singleton] at h
    have hsame := congrArg UInt8.toNat h
    rw [hbyte, UInt8.toNat_ofNat', Nat.mod_eq_of_lt (by omega)] at hsame
    exact Char.toNat_inj.mp hsame.symm
  · have := hhigh _ h
    omega

/-- A carriage return and a line feed, as bytes. -/
def lineEndBytes : Bytes := [13, 10]

theorem lineEndBytes_infix_of_append {bytes rest : Bytes} (hhigh : ∀ b ∈ bytes, 128 ≤ b.toNat)
    (h : lineEndBytes <:+: bytes ++ rest) : lineEndBytes <:+: rest := by
  induction bytes with
  | nil => exact h
  | cons b bytes ih =>
    rw [List.cons_append, List.infix_cons_iff] at h
    rcases h with ⟨tail, htail⟩ | h
    · injection htail with hb
      have hlow := hhigh b List.mem_cons_self
      rw [← hb] at hlow
      exact absurd hlow (by decide)
    · exact ih (fun b hb => hhigh b (List.mem_cons_of_mem _ hb)) h

/-- A text has a line end where its bytes have one. -/
theorem lineEnd_infix_of_bytes {cs : List Char}
    (h : lineEndBytes <:+: cs.flatMap String.utf8EncodeChar) : lineEnd <:+: cs := by
  -- The line end begins at the first character, which is then one byte, or behind it.
  induction cs with
  | nil => exact absurd h.length_le (by decide)
  | cons c cs ih =>
    rw [List.flatMap_cons] at h
    rcases utf8EncodeChar_cases c with ⟨hc, -⟩ | hhigh
    · rw [hc, List.singleton_append, List.infix_cons_iff] at h
      rcases h with ⟨tail, htail⟩ | h
      · injection htail with hcr hrest
        have hfirst : c = '\r' := eq_of_mem_utf8EncodeChar (by decide) (by
          rw [hc, ← hcr]
          exact List.mem_singleton_self _)
        cases cs with
        | nil => cases hrest
        | cons d cs =>
          obtain ⟨b, bs, hd⟩ := List.exists_cons_of_ne_nil (@String.utf8EncodeChar_ne_nil d)
          rw [List.flatMap_cons, hd] at hrest
          injection hrest with hlf
          have hsecond : d = '\n' := eq_of_mem_utf8EncodeChar (by decide) (by
            rw [hd, ← hlf]
            exact List.mem_cons_self)
          rw [hfirst, hsecond]
          exact List.IsPrefix.isInfix ⟨cs, rfl⟩
      · exact List.infix_cons_iff.mpr (Or.inr (ih h))
    · exact List.infix_cons_iff.mpr (Or.inr (ih (lineEndBytes_infix_of_append hhigh h)))

theorem ofText_lines (line : List Char) (lines : List (List Char)) :
    Bytes.ofText (String.ofList (line ++ after lineEnd lines))
      = line.flatMap String.utf8EncodeChar
          ++ after lineEndBytes (lines.map fun l => l.flatMap String.utf8EncodeChar) := by
  rw [Bytes.ofText_ofList, List.flatMap_append, flatMap_after]
  rfl

/-! ## The end of a head -/

theorem firstIndexFrom_add {α : Type} [BEq α] (pat : List α) (i k : Nat) (xs : List α) :
    firstIndexFrom pat (i + k) xs = (firstIndexFrom pat i xs).map (· + k) := by
  induction xs generalizing i with
  | nil =>
    rw [firstIndexFrom, firstIndexFrom]
    split <;> rfl
  | cons x xs ih =>
    rw [firstIndexFrom, firstIndexFrom]
    split
    · rfl
    · rw [Nat.add_right_comm, ih]

theorem firstIndex?_cons {α : Type} [BEq α] [LawfulBEq α] {pat : List α} {x : α} {xs : List α}
    (h : ¬ pat <+: x :: xs) : firstIndex? pat (x :: xs) = (firstIndex? pat xs).map (· + 1) := by
  rw [firstIndex?, firstIndexFrom, if_neg (fun hp => h (List.isPrefixOf_iff_prefix.mp hp)),
    firstIndexFrom_add]
  rfl

theorem firstIndex?_of_starts {α : Type} [BEq α] [LawfulBEq α] {pat xs : List α}
    (h : pat <+: xs) : firstIndex? pat xs = some 0 := by
  rw [firstIndex?_eq_some_iff]
  exact ⟨Nat.zero_le _, h, fun _ hm => absurd hm (Nat.not_lt_zero _)⟩

/-- Where a search for one element leads. -/
theorem drop_of_firstIndex? {α : Type} [BEq α] [LawfulBEq α] {c : α} {xs : List α} {i : Nat}
    (h : firstIndex? [c] xs = some i) : xs.drop i = c :: xs.drop (i + 1) := by
  obtain ⟨-, ⟨rest, hrest⟩, -⟩ := (firstIndex?_eq_some_iff _ _).mp h
  rw [← List.drop_drop, ← hrest]
  rfl

theorem exists_of_firstIndex? {α : Type} [BEq α] [LawfulBEq α] {pat xs : List α} {i : Nat}
    (h : firstIndex? pat xs = some i) : ∃ rest, xs = xs.take i ++ (pat ++ rest) := by
  obtain ⟨-, ⟨rest, hrest⟩, -⟩ := (firstIndex?_eq_some_iff pat xs).mp h
  exact ⟨rest, by rw [hrest, List.take_append_drop]⟩

theorem lineEndBytes_prefix_headEnd : lineEndBytes <+: Request.headEnd := ⟨[13, 10], rfl⟩

theorem firstIndex?_line {line : Bytes} (h : ¬ lineEndBytes <:+: line) (rest : Bytes) :
    firstIndex? Request.headEnd (line ++ 13 :: rest)
      = (firstIndex? Request.headEnd (13 :: rest)).map (· + line.length) := by
  induction line with
  | nil => simp
  | cons b line ih =>
    have hline : ¬ lineEndBytes <:+: line := fun hl => h (List.infix_cons_iff.mpr (Or.inr hl))
    have hno : ¬ Request.headEnd <+: b :: (line ++ 13 :: rest) := fun hp =>
      not_prefix_of_line (by decide) h _ (lineEndBytes_prefix_headEnd.trans hp)
    rw [List.cons_append, firstIndex?_cons hno, ih hline, Option.map_map]
    rfl

theorem firstIndex?_lineEnd {line : Bytes} (hne : line ≠ []) (h : ¬ lineEndBytes <:+: line)
    (rest : Bytes) :
    firstIndex? Request.headEnd (13 :: 10 :: (line ++ 13 :: rest))
      = (firstIndex? Request.headEnd (line ++ 13 :: rest)).map (· + 2) := by
  obtain ⟨b, line, rfl⟩ := List.exists_cons_of_ne_nil hne
  have hfirst : ¬ Request.headEnd <+: 13 :: 10 :: (b :: line ++ 13 :: rest) := by
    rintro ⟨tail, htail⟩
    injection htail with _ htail
    injection htail with _ htail
    exact not_prefix_of_line (by decide) h _ ⟨tail, htail⟩
  have hsecond : ¬ Request.headEnd <+: 10 :: (b :: line ++ 13 :: rest) := by
    rintro ⟨tail, htail⟩
    injection htail with hcr
    exact absurd hcr (by decide)
  rw [firstIndex?_cons hfirst, firstIndex?_cons hsecond, Option.map_map]
  rfl

theorem after_append_headEnd (lines : List Bytes) (rest : Bytes) :
    ∃ more, after lineEndBytes lines ++ (Request.headEnd ++ rest) = 13 :: more := by
  cases lines with
  | nil => exact ⟨_, rfl⟩
  | cons line lines => exact ⟨_, rfl⟩

/-- If no line is empty, the end of a head is found behind its last line. -/
theorem firstIndex?_headEnd {line : Bytes} {lines : List Bytes}
    (hne : ∀ l ∈ lines, l ≠ []) (h : ∀ l ∈ line :: lines, ¬ lineEndBytes <:+: l) (rest : Bytes) :
    firstIndex? Request.headEnd (line ++ (after lineEndBytes lines ++ (Request.headEnd ++ rest)))
      = some (line ++ after lineEndBytes lines).length := by
  -- Behind a line and a line end the search is in the row of the lines that are left.
  induction lines generalizing line with
  | nil =>
    have hline := h line List.mem_cons_self
    have hend : firstIndex? Request.headEnd (13 :: ([10, 13, 10] ++ rest)) = some 0 := rfl
    refine (firstIndex?_line hline ([10, 13, 10] ++ rest)).trans ?_
    rw [hend, after, List.flatMap_nil, List.append_nil, Option.map_some, Nat.zero_add]
  | cons next lines ih =>
    have hnext : ¬ lineEndBytes <:+: next :=
      h next (List.mem_cons_of_mem _ List.mem_cons_self)
    have hrest := ih (fun l hl => hne l (List.mem_cons_of_mem _ hl))
      (fun l hl => h l (List.mem_cons_of_mem _ hl))
    obtain ⟨more, hmore⟩ := after_append_headEnd lines rest
    rw [hmore] at hrest
    have hsplit : line ++ (after lineEndBytes (next :: lines) ++ (Request.headEnd ++ rest))
        = line ++ 13 :: 10 :: (next ++ 13 :: more) := by
      rw [← hmore, ← List.append_assoc next]
      rfl
    rw [hsplit, firstIndex?_line (h line List.mem_cons_self),
      firstIndex?_lineEnd (hne next List.mem_cons_self) hnext, hrest, Option.map_some,
      Option.map_some]
    congr 1
    simp only [after, List.flatMap_cons, List.length_append]
    rw [show lineEndBytes.length = 2 from rfl]
    omega

/-- The end of a head that is a row of lines, with no line empty but maybe the first. -/
theorem firstIndex?_text {line : List Char} {lines : List (List Char)} (hne : ∀ l ∈ lines, l ≠ [])
    (h : ∀ l ∈ line :: lines, ¬ lineEnd <:+: l) (rest : Bytes) :
    firstIndex? Request.headEnd
        (Bytes.ofText (String.ofList (line ++ after lineEnd lines)) ++ (Request.headEnd ++ rest))
      = some (Bytes.ofText (String.ofList (line ++ after lineEnd lines))).length := by
  rw [ofText_lines, List.append_assoc]
  refine firstIndex?_headEnd ?_ ?_ rest
  · intro l hl
    obtain ⟨chars, hchars, rfl⟩ := List.mem_map.mp hl
    obtain ⟨c, cs, rfl⟩ := List.exists_cons_of_ne_nil (hne chars hchars)
    rw [List.flatMap_cons]
    exact List.append_ne_nil_of_left_ne_nil String.utf8EncodeChar_ne_nil _
  · intro l hl hend
    obtain ⟨chars, hchars, rfl⟩ := List.mem_map.mp (List.map_cons ▸ hl)
    exact h chars hchars (lineEnd_infix_of_bytes hend)

end ContentServer.Text
