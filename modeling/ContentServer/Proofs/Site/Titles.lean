import ContentServer.Proofs.Text.Patterns
import ContentServer.Proofs.Text.Trimming
import ContentServer.Site.Title

/-!
# Titles are found by looking for three marks

The title of a document is found with a pattern, whose ways are tried one after the other.  It can
also be found by looking for three marks (`Heading`): the first `<h1`, the first `>` behind it, and
the first `</h1>` behind that.  No way is ever given up for one that starts later or ends elsewhere.

* The run up to the `>` ends at the first one, because it holds no other (`head?_behindOpening`).
* The text is as short as possible, so it ends at the first `</h1>` (`head?_behindBracket`).
* If the first opening tag has no end, or no `</h1>` behind its end, then the same holds of every
  later one, because what stands behind that is less (`search_headingPattern`).

So the first opening tag decides, be it part of another tag or of a longer name such as `<h10`.
-/

namespace ContentServer.Title

open Text (Pattern Way firstIndex? lower)

/-! ## The first heading -/

/-- A word, given in lower case, stands at a place of a text in letters of either case. -/
def Stands (word : String) (html : List Char) (i : Nat) : Prop :=
  word.toList <+: lower (html.drop i)

/-- The first place from `start` on that has a property. -/
structure IsFirst (p : Nat → Prop) (start i : Nat) : Prop where
  le : start ≤ i
  holds : p i
  first : ∀ j, start ≤ j → j < i → ¬ p j

/-- Where the first heading of a text stands: the first opening tag at `p`, its end at `q`, and the
first closing tag behind that at `s`. -/
structure Heading (html : List Char) (p q s : Nat) : Prop where
  opening : IsFirst (Stands "<h1" html) 0 p
  bracket : IsFirst (fun i => html[i]? = some '>') (p + 3) q
  closing : IsFirst (Stands "</h1>" html) (q + 1) s

/-- The text behind one place and before another. -/
def between (html : List Char) (q s : Nat) : List Char := (html.drop (q + 1)).take (s - (q + 1))

theorem IsFirst.unique {p : Nat → Prop} {start i j : Nat} (hi : IsFirst p start i)
    (hj : IsFirst p start j) : i = j := by
  rcases Nat.lt_trichotomy i j with h | h | h
  · exact absurd hi.holds (hj.first i hi.le h)
  · exact h
  · exact absurd hj.holds (hi.first j hj.le h)

/-- A text has one first heading at most. -/
theorem Heading.unique {html : List Char} {p q s p' q' s' : Nat} (h : Heading html p q s)
    (h' : Heading html p' q' s') : p = p' ∧ q = q' ∧ s = s' := by
  obtain rfl := h.opening.unique h'.opening
  obtain rfl := h.bracket.unique h'.bracket
  exact ⟨rfl, rfl, h.closing.unique h'.closing⟩

/-- Looking for a word from a place on finds the first place of the word. -/
theorem isFirst_iff {pat xs : List Char} (hne : pat ≠ []) {start i : Nat} :
    IsFirst (fun i => pat <+: xs.drop i) start i ↔
      ∃ k, i = start + k ∧ firstIndex? pat (xs.drop start) = some k := by
  simp only [Text.firstIndex?_eq_some_iff, List.drop_drop, List.length_drop]
  constructor
  · rintro ⟨hle, hstands, hfirst⟩
    have hlong := List.length_pos_iff.mpr hne
    have hfit := hstands.length_le
    rw [List.length_drop] at hfit
    refine ⟨i - start, (Nat.add_sub_cancel' hle).symm, by omega, ?_, fun m hm => ?_⟩
    · rw [Nat.add_sub_cancel' hle]
      exact hstands
    · exact hfirst (start + m) (Nat.le_add_right start m) (by omega)
  · rintro ⟨k, rfl, -, hstands, hfirst⟩
    refine ⟨Nat.le_add_right start k, hstands, fun j hj hlt => ?_⟩
    have hearlier := hfirst (j - start) (by omega)
    rwa [Nat.add_sub_cancel' hj] at hearlier

theorem stands_eq (word : String) (html : List Char) :
    Stands word html = fun i => word.toList <+: (lower html).drop i := by
  funext i
  rw [Stands, lower, lower, List.map_drop]

theorem bracket_eq (html : List Char) :
    (fun i => html[i]? = some '>') = fun i => ['>'] <+: html.drop i := by
  funext i
  rw [← List.head?_drop]
  cases html.drop i with
  | nil => simp
  | cons c cs => simp [List.cons_prefix_cons, eq_comm]

/-! ## What the pattern finds -/

/-- What stands behind the end of the opening tag. -/
def behindBracket : Pattern := .row [.kept (.fewest fun _ => true), .word "</h1>"]

/-- What stands behind the first letters of a heading. -/
def behindOpening : Pattern :=
  .row [.most (· != '>'), .word ">", .kept (.fewest fun _ => true), .word "</h1>"]

/-- The match of a heading's text from its start to the closing tag. -/
def matched (inner : List Char) (s : Nat) : Way :=
  ⟨inner.drop (s + 5), some (inner, inner.drop s)⟩

theorem ways_behindBracket (w : Way) :
    behindBracket.ways w
      = (Pattern.rests (fun _ => true) [] w.rest).reverse.flatMap fun rest =>
          (Pattern.word "</h1>").ways ⟨rest, some (w.rest, rest)⟩ := by
  rw [behindBracket, Pattern.ways_row_cons, Pattern.ways, Pattern.ways, List.map_map,
    List.flatMap_map]
  simp only [Pattern.ways_row_singleton]
  rfl

theorem head?_behindBracket (inner : List Char) :
    (behindBracket.ways { rest := inner }).head?
      = (firstIndex? "</h1>".toList (lower inner)).map (matched inner) := by
  rw [ways_behindBracket,
    Pattern.head?_flatMap_rests _ _ fun rest => Pattern.ways_word_ne_nil_iff]
  cases hs : firstIndex? "</h1>".toList (lower inner) with
  | none => rfl
  | some s =>
    obtain ⟨-, hstands, -⟩ := (Text.firstIndex?_eq_some_iff _ _).mp hs
    rw [lower, ← List.map_drop] at hstands
    dsimp only
    rw [Pattern.ways_word_of_starts hstands, List.drop_drop]
    rfl

theorem ways_behindOpening (w : Way) :
    behindOpening.ways w
      = (Pattern.rests (· != '>') [] w.rest).flatMap fun rest =>
          ((Pattern.word ">").ways { w with rest }).flatMap behindBracket.ways := by
  rw [behindOpening, Pattern.ways_row_cons, Pattern.ways, List.flatMap_map]
  rfl

theorem head?_behindOpening (html : List Char) :
    (behindOpening.ways { rest := html }).head?
      = (firstIndex? ['>'] html).bind fun q =>
          (firstIndex? "</h1>".toList (lower (html.drop (q + 1)))).map
            (matched (html.drop (q + 1))) := by
  have hbracket : ∀ rest : List Char, rest.head? ≠ some '>' →
      ((Pattern.word ">").ways { rest }).flatMap behindBracket.ways = [] := by
    intro rest hhead
    rw [Pattern.ways_word_of_not_starts, List.flatMap_nil]
    rintro ⟨more, hmore⟩
    cases rest with
    | nil => cases hmore
    | cons c rest =>
      injection hmore with hc
      exact hhead (congrArg some (Text.eq_of_toLower (by decide) hc.symm))
  rw [ways_behindOpening, Pattern.flatMap_rests_of_ne _ hbracket]
  cases hq : firstIndex? ['>'] html with
  | none => rfl
  | some q =>
    have hstands : ">".toList <+: lower (html.drop q) :=
      ⟨lower (html.drop (q + 1)), by rw [Text.drop_of_firstIndex? hq]; rfl⟩
    dsimp only
    rw [Pattern.ways_word_of_starts hstands, List.flatMap_singleton, List.drop_drop]
    exact head?_behindBracket _

/-! ## The first opening tag decides -/

/-- There is an end of an opening tag, and a closing tag behind it. -/
def Closes (html : List Char) : Prop :=
  ∃ before inner, html = before ++ '>' :: inner ∧ "</h1>".toList <:+: lower inner

theorem Closes.of_suffix {html rest : List Char} (h : Closes rest) (hrest : rest <:+ html) :
    Closes html := by
  obtain ⟨before, inner, rfl, hclosing⟩ := h
  obtain ⟨front, rfl⟩ := hrest
  exact ⟨front ++ before, inner, (List.append_assoc _ _ _).symm, hclosing⟩

theorem head?_behindOpening_eq_none_iff (html : List Char) :
    (behindOpening.ways { rest := html }).head? = none ↔ ¬ Closes html := by
  rw [head?_behindOpening]
  cases hq : firstIndex? ['>'] html with
  | none =>
    refine iff_of_true rfl ?_
    rintro ⟨before, inner, rfl, -⟩
    exact (Text.firstIndex?_eq_none_iff _ _).mp hq ⟨before, inner, by simp⟩
  | some q =>
    rw [Option.bind_some, Option.map_eq_none_iff, Text.firstIndex?_eq_none_iff]
    refine not_congr ⟨fun hclosing => ?_, ?_⟩
    · refine ⟨html.take q, html.drop (q + 1), ?_, hclosing⟩
      rw [← Text.drop_of_firstIndex? hq, List.take_append_drop]
    · -- The first end of an opening tag stands before any other one.
      rintro ⟨before, inner, rfl, hclosing⟩
      obtain ⟨-, -, hfirst⟩ := (Text.firstIndex?_eq_some_iff _ _).mp hq
      have hle : q ≤ before.length := by
        refine Nat.le_of_not_lt fun hlt => hfirst before.length hlt ?_
        rw [List.drop_left]
        exact ⟨inner, rfl⟩
      have hsuffix : inner <:+ (before ++ '>' :: inner).drop (q + 1) := by
        rw [List.append_cons, List.drop_append_of_le_length (by simpa using hle)]
        exact List.suffix_append _ _
      exact hclosing.trans (hsuffix.map Char.toLower).isInfix

/-- Where the first opening tag is not closed, no later one is. -/
theorem search_headingPattern (html : List Char) :
    headingPattern.search html
      = (firstIndex? "<h1".toList (lower html)).bind fun p =>
          (behindOpening.ways { rest := html.drop (p + 3) }).head? := by
  induction html with
  | nil => rfl
  | cons c html ih =>
    rw [Pattern.search_cons, headingPattern, Pattern.ways_row_cons, ← headingPattern]
    by_cases h : "<h1".toList <+: lower (c :: html)
    · rw [Pattern.ways_word_of_starts h, List.flatMap_singleton, Text.firstIndex?_of_starts h,
        Option.bind_some]
      show (behindOpening.ways { rest := html.drop 2 }).head?.or (headingPattern.search html)
        = (behindOpening.ways { rest := html.drop 2 }).head?
      cases hways : (behindOpening.ways { rest := html.drop 2 }).head? with
      | some w => rfl
      | none =>
        rw [Option.none_or, ih]
        cases firstIndex? "<h1".toList (lower html) with
        | none => rfl
        | some p =>
          rw [Option.bind_some, head?_behindOpening_eq_none_iff]
          refine fun hcloses => (head?_behindOpening_eq_none_iff _).mp hways (hcloses.of_suffix ?_)
          rw [show p + 3 = 2 + (p + 1) by omega, ← List.drop_drop]
          exact List.drop_suffix _ _
    · have hlater : firstIndex? "<h1".toList (lower (c :: html))
          = (firstIndex? "<h1".toList (lower html)).map (· + 1) := Text.firstIndex?_cons h
      rw [Pattern.ways_word_of_not_starts h, hlater, Option.bind_map]
      exact ih

theorem text?_matched {inner : List Char} {s : Nat} (h : s ≤ inner.length) :
    (matched inner s).text? = some (inner.take s) := by
  show some (inner.take (inner.length - (inner.drop s).length)) = some (inner.take s)
  rw [List.length_drop, Nat.sub_sub_self h]

/-- The text of a heading is found by looking for three marks, one after the other. -/
theorem heading?_eq (html : List Char) :
    heading? html
      = (firstIndex? "<h1".toList (lower html)).bind fun p =>
          (firstIndex? ['>'] (html.drop (p + 3))).bind fun q =>
            (firstIndex? "</h1>".toList (lower (html.drop (p + 3 + (q + 1))))).map
              (html.drop (p + 3 + (q + 1))).take := by
  rw [heading?, search_headingPattern, Option.bind_assoc]
  congr 1
  funext p
  rw [head?_behindOpening, Option.bind_assoc]
  congr 1
  funext q
  rw [List.drop_drop]
  cases hs : firstIndex? "</h1>".toList (lower (html.drop (p + 3 + (q + 1)))) with
  | none => rfl
  | some s =>
    obtain ⟨hlong, -⟩ := (Text.firstIndex?_eq_some_iff _ _).mp hs
    rw [lower, List.length_map] at hlong
    exact text?_matched hlong

/-- The pattern finds the text of the first heading. -/
theorem heading?_eq_some_iff {html text : List Char} :
    heading? html = some text ↔
      ∃ p q s, Heading html p q s ∧ text = between html q s := by
  have hopening : ∀ i, IsFirst (Stands "<h1" html) 0 i ↔
      firstIndex? "<h1".toList (lower html) = some i := by
    intro i
    rw [stands_eq, isFirst_iff (by decide)]
    simp
  have hbracket : ∀ start i, IsFirst (fun i => html[i]? = some '>') start i ↔
      ∃ k, i = start + k ∧ firstIndex? ['>'] (html.drop start) = some k := by
    intro start i
    rw [bracket_eq, isFirst_iff (by decide)]
  have hclosing : ∀ start i, IsFirst (Stands "</h1>" html) start i ↔
      ∃ k, i = start + k ∧ firstIndex? "</h1>".toList (lower (html.drop start)) = some k := by
    intro start i
    rw [stands_eq, isFirst_iff (by decide), lower, lower, List.map_drop]
  simp only [heading?_eq, Option.bind_eq_some_iff, Option.map_eq_some_iff]
  constructor
  · rintro ⟨p, hp, q, hq, s, hs, rfl⟩
    refine ⟨p, p + 3 + q, p + 3 + q + 1 + s, ⟨(hopening p).mpr hp, (hbracket _ _).mpr ⟨q, rfl, hq⟩,
      (hclosing _ _).mpr ⟨s, rfl, hs⟩⟩, ?_⟩
    rw [between, Nat.add_sub_cancel_left]
    rfl
  · rintro ⟨p, q, s, ⟨hp, hq, hs⟩, rfl⟩
    obtain ⟨k, rfl, hk⟩ := (hbracket _ _).mp hq
    obtain ⟨l, rfl, hl⟩ := (hclosing _ _).mp hs
    exact ⟨p, (hopening p).mp hp, k, hk, l, hl, by rw [between, Nat.add_sub_cancel_left]; rfl⟩

theorem ofDocument?_eq_some_iff {html title : String} :
    ofDocument? html = some title ↔
      ∃ text, heading? html.toList = some text ∧ title ≠ "" ∧ title.toList = Text.trim text := by
  rw [ofDocument?]
  cases heading? html.toList with
  | none => exact iff_of_false nofun (by rintro ⟨text, ⟨⟩, -⟩)
  | some text =>
    simp only [Option.some.injEq, exists_eq_left']
    split
    · next hempty =>
      refine iff_of_false nofun ?_
      rintro ⟨hne, htitle⟩
      rw [List.isEmpty_iff.mp hempty] at htitle
      exact hne (String.toList_eq_nil_iff.mp htitle)
    · next hempty =>
      rw [Option.some.injEq]
      constructor
      · rintro rfl
        refine ⟨fun h => hempty ?_, String.toList_ofList⟩
        rw [← String.toList_eq_nil_iff, String.toList_ofList] at h
        exact List.isEmpty_iff.mpr h
      · rintro ⟨-, htitle⟩
        rw [← htitle, String.ofList_toList]

/-- A document has a title iff it has a first heading with more than blanks in it.  The title is the
text of this heading without the blanks around it.  No other heading is looked at. -/
theorem title_of_first_heading (html : String) :
    (∀ title : String, ofDocument? html = some title ↔
      ∃ p q s, Heading html.toList p q s ∧ title ≠ "" ∧
        title.toList = Text.trim (between html.toList q s)) ∧
    (ofDocument? html = none ↔
      ∀ p q s, Heading html.toList p q s → Text.trim (between html.toList q s) = []) ∧
    ∀ p q s p' q' s', Heading html.toList p q s → Heading html.toList p' q' s' →
      p = p' ∧ q = q' ∧ s = s' := by
  have hsome : ∀ title : String, ofDocument? html = some title ↔
      ∃ p q s, Heading html.toList p q s ∧ title ≠ "" ∧
        title.toList = Text.trim (between html.toList q s) := by
    intro title
    rw [ofDocument?_eq_some_iff]
    constructor
    · rintro ⟨text, htext, hne, htitle⟩
      obtain ⟨p, q, s, hheading, rfl⟩ := heading?_eq_some_iff.mp htext
      exact ⟨p, q, s, hheading, hne, htitle⟩
    · rintro ⟨p, q, s, hheading, hne, htitle⟩
      exact ⟨_, heading?_eq_some_iff.mpr ⟨p, q, s, hheading, rfl⟩, hne, htitle⟩
  refine ⟨hsome, ⟨fun hnone p q s hheading => ?_, fun hblank => ?_⟩,
    fun p q s p' q' s' => Heading.unique⟩
  · by_contra hne
    have htitle := (hsome (String.ofList (Text.trim (between html.toList q s)))).mpr
      ⟨p, q, s, hheading, fun h => hne (String.ofList_eq_empty_iff.mp h), String.toList_ofList⟩
    rw [hnone] at htitle
    cases htitle
  · rw [Option.eq_none_iff_forall_ne_some]
    intro title htitle
    obtain ⟨p, q, s, hheading, hne, htext⟩ := (hsome title).mp htitle
    rw [hblank p q s hheading] at htext
    exact hne (String.toList_eq_nil_iff.mp htext)

/-- The tag that opens a heading may swallow another one, and what it swallows is not looked at. -/
example : ofDocument? "<h10 title='<h1>'>a</h1><h1>b</h1>" = some "'>a" := by decide

end ContentServer.Title
