import ContentServer.Proofs.Http.Parsing
import ContentServer.Proofs.Text.Lines

/-!
# Heads of requests

What the parser accepts is written down here as a grammar.  A *head* is a method, a target, a
version and some fields.  `Head.bytes` writes it, `Head.Legal` says which heads may be written, and
`Head.request` is the request that a head stands for.

`Request.parse_eq_some_iff_legal` says that the parser reads what is written and nothing else: it
finds a request iff the buffer holds line breaks, then a legal head, and then anything.

The proof goes through the layers of the parser, and there is one equivalence for each: the words of
the request line, the parts of a field, what a field adds to a request, all fields, all lines.

A buffer holds at most one head at its front.  `Request.headIn` takes it apart again, so that
statements can be about the head of an accepted request (`Request.headIn_spec`).
-/

namespace ContentServer

open Text (lineEnd lineEndBytes after)

/-! ## The grammar -/

/-- A field of a head as it is written. -/
structure HeadField where
  /-- What stands before the first colon. -/
  name : List Char
  /-- What stands behind it. -/
  raw : List Char
deriving DecidableEq, Repr

namespace HeadField

/-- The line that a field is. -/
def line (f : HeadField) : List Char := f.name ++ ':' :: f.raw

/-- The value of a field, without the blanks around it. -/
def value (f : HeadField) : List Char := Text.trim f.raw

/-- Whether a field has a name, given in lower case. -/
def isNamed (name : String) (f : HeadField) : Bool := Text.lower f.name = name.toList

/-- Whether the value of a field is a number: digits, with at most one plus sign before them. -/
def HasNumber (f : HeadField) : Prop :=
  ∃ digits, (f.value = digits ∨ f.value = '+' :: digits) ∧ digits ≠ [] ∧
    ∀ d ∈ digits, d.isDigit = true

/-- The number that the digits in the value of a field denote. -/
def number (f : HeadField) : Nat := Nat.ofDigitChars 10 (f.value.filter Char.isDigit) 0

/-- A field with a proper name. -/
structure IsField (f : HeadField) : Prop where
  name_ne_nil : f.name ≠ []
  no_space : ' ' ∉ f.name
  no_colon : ':' ∉ f.name

theorem IsField.line_ne_nil {f : HeadField} (h : f.IsField) : f.line ≠ [] :=
  List.append_ne_nil_of_left_ne_nil h.name_ne_nil _

/-- A field that may stand in a head. -/
structure Legal (maxBody : Nat) (f : HeadField) : Prop extends f.IsField where
  not_transferEncoding : f.isNamed "transfer-encoding" = false
  contentLength : f.isNamed "content-length" = true →
    f.HasNumber ∧ f.number < UInt64.size ∧ f.number ≤ maxBody

end HeadField

/-- The head of a request as it is written. -/
structure Head where
  method : Method
  target : List Char
  version : Version
  fields : List HeadField
deriving DecidableEq, Repr

namespace Head

/-- The first line of a head. -/
def requestLine (h : Head) : List Char :=
  h.method.token.toList ++ ' ' :: (h.target ++ ' ' :: h.version.token.toList)

/-- The lines of a head with line ends between them. -/
def text (h : Head) : List Char := h.requestLine ++ after lineEnd (h.fields.map HeadField.line)

/-- The bytes of a head.  It ends with an empty line. -/
def bytes (h : Head) : Bytes := Bytes.ofText (String.ofList h.text) ++ Request.headEnd

/-- A head that may be written. -/
structure Legal (maxBody : Nat) (h : Head) : Prop where
  target_ne_nil : h.target ≠ []
  no_space : ' ' ∉ h.target
  fields : ∀ f ∈ h.fields, f.Legal maxBody
  no_lineEnd : ∀ line ∈ h.requestLine :: h.fields.map HeadField.line, ¬ lineEnd <:+: line

/-- The fields of a name, the first one first. -/
def named (name : String) (fields : List HeadField) : List HeadField :=
  fields.filter (HeadField.isNamed name)

/-- The codings whose names occur in a value. -/
def codingsIn (value : List Char) : List Coding :=
  [.gzip, .deflate, .br].filter fun coding => coding.token.toList <:+: value

/-- A request with what some more fields say.  The last host, agent and length hold, and options and
codings add up. -/
def complete (r : Request) (fields : List HeadField) : Request :=
  { r with
    host := ((named "host" fields).map fun f => String.ofList f.value).getLastD r.host
    userAgent :=
      ((named "user-agent" fields).map fun f => String.ofList f.value).getLastD r.userAgent
    connection := r.connection ++ (named "connection" fields).flatMap fun f => Field.options f.value
    codings := r.codings ++ (named "accept-encoding" fields).flatMap fun f => codingsIn f.value
    contentLength :=
      ((named "content-length" fields).map HeadField.number).getLastD r.contentLength }

/-- The request that a head stands for. -/
def request (h : Head) : Request :=
  complete { method := h.method, target := String.ofList h.target, version := h.version } h.fields

theorem length_bytes (h : Head) :
    h.bytes.length = (Bytes.ofText (String.ofList h.text)).length + Request.headEnd.length := by
  rw [bytes, List.length_append]

end Head

/-! ## Request lines -/

namespace Request

theorem readVersion_eq_ok_iff {word : List Char} {v : Version} :
    readVersion word = .ok v ↔ word = v.token.toList := by
  rw [readVersion]
  constructor
  · intro h
    split at h
    · next hword =>
      cases h
      exact hword
    · split at h
      · next hword =>
        cases h
        exact hword
      · split at h <;> cases h
  · rintro rfl
    cases v <;> rfl

theorem ofToken?_ofList_eq_some_iff {word : List Char} {m : Method} :
    Method.ofToken? (String.ofList word) = some m ↔ word = m.token.toList := by
  rw [Method.ofToken?_eq_some_iff]
  constructor
  · intro h
    rw [← h, String.toList_ofList]
  · rintro rfl
    rw [String.ofList_toList]

theorem splitOn_three_iff {line first second third : List Char} :
    List.splitOn ' ' line = [first, second, third] ↔
      line = first ++ ' ' :: (second ++ ' ' :: third) ∧ ' ' ∉ first ∧ ' ' ∉ second ∧
        ' ' ∉ third := by
  rw [Text.splitOn_eq_cons_iff]
  simp [after]

theorem space_not_mem_token (m : Method) : ' ' ∉ m.token.toList := by cases m <;> decide

theorem space_not_mem_version (v : Version) : ' ' ∉ v.token.toList := by cases v <;> decide

/-- A request line is a method, a target and a version. -/
theorem ofRequestLine_eq_ok_iff {line : List Char} {r : Request} :
    ofRequestLine line = .ok r ↔
      ∃ (m : Method) (target : List Char) (v : Version),
        line = m.token.toList ++ ' ' :: (target ++ ' ' :: v.token.toList) ∧ target ≠ [] ∧
          ' ' ∉ target ∧ r = { method := m, target := String.ofList target, version := v } := by
  constructor
  · intro h
    rw [ofRequestLine] at h
    split at h
    · next method target version hsplit =>
      obtain ⟨rfl, -, hspace, -⟩ := splitOn_three_iff.mp hsplit
      split at h
      · cases h
      · next hwords =>
        split at h
        · cases h
        · next m hm =>
          cases hv : readVersion version with
          | error e => rw [hv] at h; cases h
          | ok v =>
            rw [hv] at h
            cases h
            rw [ofToken?_ofList_eq_some_iff.mp hm, readVersion_eq_ok_iff.mp hv]
            simp only [Bool.or_eq_true, List.isEmpty_iff, not_or] at hwords
            exact ⟨m, target, v, rfl, hwords.1.2, hspace, rfl⟩
    · cases h
  · rintro ⟨m, target, v, rfl, hne, hspace, rfl⟩
    have hsplit := splitOn_three_iff.mpr
      ⟨rfl, space_not_mem_token m, hspace, space_not_mem_version v⟩
    have hm : m.token.toList.isEmpty = false := by cases m <;> rfl
    have hv : v.token.toList.isEmpty = false := by cases v <;> rfl
    have htarget : target.isEmpty = false := by simpa using hne
    have hmethod := ofToken?_ofList_eq_some_iff.mpr (rfl : m.token.toList = m.token.toList)
    have hversion := readVersion_eq_ok_iff.mpr (rfl : v.token.toList = v.token.toList)
    simp only [ofRequestLine, hsplit, hm, hv, htarget, hmethod, hversion]
    rfl

end Request

/-! ## Fields -/

namespace Field

theorem takeWhile_line {f : HeadField} (h : f.IsField) :
    f.line.takeWhile (· != ':') = f.name ∧ f.line.drop (f.name.length + 1) = f.raw := by
  have hname : ∀ c ∈ f.name, (c != ':') = true := by
    intro c hc
    exact bne_iff_ne.mpr fun heq => h.no_colon (heq ▸ hc)
  constructor
  · rw [HeadField.line, List.takeWhile_append_of_pos hname, List.takeWhile_cons_of_neg (by decide),
      List.append_nil]
  · rw [HeadField.line, ← List.drop_drop, List.drop_left]
    rfl

/-- A text with a colon is a name, the first colon and anything. -/
theorem exists_line {line : List Char}
    (h : (line.takeWhile (· != ':')).length ≠ line.length) :
    ∃ f : HeadField, line = f.line ∧ f.name = line.takeWhile (· != ':') ∧ ':' ∉ f.name := by
  have hsplit := List.takeWhile_append_dropWhile (p := (· != ':')) (l := line)
  have hcolon : ':' ∉ line.takeWhile (· != ':') := by
    intro hc
    exact absurd (List.mem_takeWhile_imp hc) (by decide)
  cases hrest : line.dropWhile (· != ':') with
  | nil =>
    rw [hrest, List.append_nil] at hsplit
    exact absurd (congrArg List.length hsplit) h
  | cons c raw =>
    have hc : c = ':' := by
      have hstop := List.head?_dropWhile_not (· != ':') line
      rw [hrest] at hstop
      simpa using hstop
    rw [hrest, hc] at hsplit
    exact ⟨⟨_, raw⟩, hsplit.symm, rfl, hcolon⟩

/-- A field is a name, a colon and anything. -/
theorem ofLine?_eq_some_iff {line : List Char} {field : Field} :
    ofLine? line = some field ↔
      ∃ f : HeadField, line = f.line ∧ f.IsField ∧ field = ⟨f.name, f.value⟩ := by
  constructor
  · intro h
    rw [ofLine?] at h
    split at h
    · cases h
    · next hname =>
      cases h
      simp only [Bool.or_eq_true, decide_eq_true_eq, List.isEmpty_iff, List.contains_iff_mem,
        not_or] at hname
      obtain ⟨⟨hlength, hne⟩, hspace⟩ := hname
      obtain ⟨f, hline, hfname, hcolon⟩ := exists_line hlength
      rw [← hfname] at hne hspace
      have hfield : f.IsField := ⟨hne, hspace, hcolon⟩
      refine ⟨f, hline, hfield, ?_⟩
      rw [← hfname, hline, (takeWhile_line hfield).2]
      rfl
  · rintro ⟨f, rfl, hf, rfl⟩
    obtain ⟨hname, hraw⟩ := takeWhile_line hf
    have hlength : f.name.length ≠ f.line.length := by
      rw [HeadField.line, List.length_append, List.length_cons]
      omega
    have hempty : f.name.isEmpty = false := by simpa using hf.name_ne_nil
    have hspace : f.name.contains ' ' = false := by simpa using hf.no_space
    simp only [ofLine?, hname, hraw, decide_eq_false hlength, hempty, hspace]
    rfl

end Field

/-! ## Names of fields -/

/-- A name denotes a known field iff it is the name of this field in some case. -/
theorem FieldName.ofText_eq_iff {key : String} {field : FieldName} (h : (key, field) ∈ table)
    {name : List Char} : ofText name = field ↔ Text.lower name = key.toList := by
  have hknown : ∀ e ∈ table, (table.lookup e.1).getD .other = e.2 ∧ e.2 ≠ .other := by decide
  have hunique : ∀ e ∈ table, ∀ e' ∈ table, e.2 = e'.2 → e.1 = e'.1 := by decide
  rw [ofText]
  constructor
  · intro hname
    cases hfound : table.lookup (String.ofList (Text.lower name)) with
    | none =>
      rw [hfound] at hname
      exact absurd hname.symm (hknown _ h).2
    | some found =>
      rw [hfound] at hname
      have hmem : (String.ofList (Text.lower name), found) ∈ table := by
        obtain ⟨before, behind, hsplit, -⟩ := List.lookup_eq_some_iff.mp hfound
        rw [hsplit]
        exact List.mem_append_right _ List.mem_cons_self
      have hkey : String.ofList (Text.lower name) = key := hunique _ hmem _ h hname
      rw [← hkey, String.toList_ofList]
  · intro hname
    rw [hname, String.ofList_toList]
    exact (hknown _ h).1

theorem HeadField.isNamed_eq {key : String} {field : FieldName}
    (h : (key, field) ∈ FieldName.table) (f : HeadField) :
    f.isNamed key = decide (FieldName.ofText f.name = field) := by
  rw [isNamed, decide_eq_decide, FieldName.ofText_eq_iff h]

theorem HeadField.legal_iff {maxBody : Nat} {f : HeadField} :
    f.Legal maxBody ↔ f.IsField ∧ FieldName.ofText f.name ≠ .transferEncoding ∧
      (FieldName.ofText f.name = .contentLength →
        f.HasNumber ∧ f.number < UInt64.size ∧ f.number ≤ maxBody) := by
  have htransfer :=
    f.isNamed_eq (by decide : ("transfer-encoding", .transferEncoding) ∈ FieldName.table)
  have hlength := f.isNamed_eq (by decide : ("content-length", .contentLength) ∈ FieldName.table)
  constructor
  · rintro ⟨hfield, hno, hnumber⟩
    rw [htransfer, decide_eq_false_iff_not] at hno
    rw [hlength, decide_eq_true_iff] at hnumber
    exact ⟨hfield, hno, hnumber⟩
  · rintro ⟨hfield, hno, hnumber⟩
    refine ⟨hfield, ?_, ?_⟩
    · rw [htransfer, decide_eq_false_iff_not]
      exact hno
    · rw [hlength, decide_eq_true_iff]
      exact hnumber

/-! ## Numbers -/

theorem Text.digits?_eq_some_iff {cs : List Char} {n : Nat} :
    Text.digits? cs = some n ↔
      cs ≠ [] ∧ (∀ c ∈ cs, c.isDigit = true) ∧ Nat.ofDigitChars 10 cs 0 = n := by
  rw [Text.digits?]
  split
  · next h =>
    simp only [Bool.or_eq_true, List.isEmpty_iff, Bool.not_eq_true', List.all_eq_false] at h
    constructor
    · intro hn
      cases hn
    · rintro ⟨hne, hall, -⟩
      rcases h with hnil | ⟨c, hc, hbad⟩
      · exact absurd hnil hne
      · exact absurd (hall c hc) hbad
  · next h =>
    simp only [Bool.or_eq_true, List.isEmpty_iff, Bool.not_eq_true', not_or,
      Bool.not_eq_false, List.all_eq_true] at h
    rw [Option.some.injEq]
    exact ⟨fun hn => ⟨h.1, h.2, hn⟩, fun hn => hn.2.2⟩

namespace HeadField

theorem number_eq {f : HeadField} {digits : List Char}
    (h : f.value = digits ∨ f.value = '+' :: digits) (hdigits : ∀ d ∈ digits, d.isDigit = true) :
    f.number = Nat.ofDigitChars 10 digits 0 := by
  have hkeep : digits.filter Char.isDigit = digits := List.filter_eq_self.mpr hdigits
  rcases h with h | h
  · rw [number, h, hkeep]
  · rw [number, h, List.filter_cons_of_neg (by decide), hkeep]

/-- The number in a value is what is read from it, if it is below the bound. -/
theorem natural?_eq_some_iff {f : HeadField} {bound n : Nat} :
    Text.natural? bound f.value = some n ↔ f.HasNumber ∧ f.number = n ∧ n < bound := by
  rw [Text.natural?, Option.filter_eq_some_iff, Text.digits?_eq_some_iff, decide_eq_true_eq]
  constructor
  · rintro ⟨⟨hne, hall, hn⟩, hbound⟩
    have hvalue : f.value = (if f.value.head? = some '+' then f.value.tail else f.value) ∨
        f.value = '+' :: (if f.value.head? = some '+' then f.value.tail else f.value) := by
      split
      · next hplus => exact Or.inr (List.eq_cons_of_mem_head? hplus)
      · exact Or.inl rfl
    exact ⟨⟨_, hvalue, hne, hall⟩, (number_eq hvalue hall).trans hn, hbound⟩
  · rintro ⟨⟨digits, hvalue, hne, hall⟩, rfl, hbound⟩
    have hread : (if f.value.head? = some '+' then f.value.tail else f.value) = digits := by
      rcases hvalue with h | h
      · rw [h, if_neg]
        intro hplus
        exact absurd (hall '+' (List.mem_of_mem_head? hplus)) (by decide)
      · rw [h, List.head?_cons, if_pos rfl, List.tail_cons]
    rw [hread]
    exact ⟨⟨hne, hall, (number_eq hvalue hall).symm⟩, hbound⟩
end HeadField

/-! ## What fields add to a request -/

namespace Head

theorem codings_eq (value : List Char) : Field.codings value = codingsIn value := by
  simp only [Field.codings, codingsIn, Coding.all]
  congr 1
  funext coding
  rw [Bool.eq_iff_iff, Text.occursIn_iff, decide_eq_true_iff]

theorem complete_nil (r : Request) : complete r [] = r := by simp [complete, named]

/-- What one field adds to a request depends on its name. -/
theorem complete_singleton (r : Request) (f : HeadField) :
    complete r [f] = match FieldName.ofText f.name with
      | .host => { r with host := String.ofList f.value }
      | .userAgent => { r with userAgent := String.ofList f.value }
      | .connection => { r with connection := r.connection ++ Field.options f.value }
      | .acceptEncoding => { r with codings := r.codings ++ codingsIn f.value }
      | .contentLength => { r with contentLength := f.number }
      | .transferEncoding | .other => r := by
  have hhost := f.isNamed_eq (by decide : ("host", .host) ∈ FieldName.table)
  have hagent := f.isNamed_eq (by decide : ("user-agent", .userAgent) ∈ FieldName.table)
  have hconnection := f.isNamed_eq (by decide : ("connection", .connection) ∈ FieldName.table)
  have hcodings := f.isNamed_eq (by decide : ("accept-encoding", .acceptEncoding) ∈ FieldName.table)
  have hlength := f.isNamed_eq (by decide : ("content-length", .contentLength) ∈ FieldName.table)
  simp only [complete, named, List.filter_cons, List.filter_nil, hhost, hagent, hconnection,
    hcodings, hlength]
  cases FieldName.ofText f.name <;> simp

theorem complete_cons (r : Request) (f : HeadField) (fields : List HeadField) :
    complete r (f :: fields) = complete (complete r [f]) fields := by
  have hnamed : ∀ name, named name (f :: fields) = named name [f] ++ named name fields :=
    fun name => List.filter_append [f] fields
  have hlast : ∀ {α : Type} (first rest : List α) (d : α),
      (first ++ rest).getLastD d = rest.getLastD (first.getLastD d) := by
    intro α first rest d
    simp only [List.getLastD_eq_getLast?, List.getLast?_append]
    cases rest.getLast? <;> rfl
  simp only [complete, hnamed, List.map_append, hlast, List.flatMap_append, List.append_assoc]

end Head

namespace Request

theorem addField_line_eq_ok_iff {maxBody : Nat} {r r' : Request} {f : HeadField} (h : f.IsField) :
    addField maxBody r f.line = .ok r' ↔ f.Legal maxBody ∧ r' = Head.complete r [f] := by
  have hread : Field.ofLine? f.line = some ⟨f.name, f.value⟩ :=
    Field.ofLine?_eq_some_iff.mpr ⟨f, rfl, h, rfl⟩
  rw [addField, hread, HeadField.legal_iff, and_iff_right h, Head.complete_singleton]
  dsimp only
  cases FieldName.ofText f.name with
  | contentLength =>
    -- A number at or above the bound is malformed, and one below it may still be too large.
    cases hn : Text.natural? lengthBound f.value with
    | none =>
      constructor
      · intro hr
        cases hr
      · rintro ⟨⟨-, hnumber⟩, -⟩
        obtain ⟨hdigits, hlt, -⟩ := hnumber rfl
        have hsome : Text.natural? lengthBound f.value = some f.number :=
          HeadField.natural?_eq_some_iff.mpr ⟨hdigits, rfl, hlt⟩
        rw [hn] at hsome
        cases hsome
    | some n =>
      obtain ⟨hdigits, rfl, hlt⟩ := HeadField.natural?_eq_some_iff.mp hn
      dsimp only
      by_cases hbody : f.number > maxBody
      · rw [if_pos hbody]
        constructor
        · intro hr
          cases hr
        · rintro ⟨⟨-, hnumber⟩, -⟩
          exact absurd (hnumber rfl).2.2 (Nat.not_le_of_gt hbody)
      · rw [if_neg hbody, Except.ok.injEq, eq_comm, and_iff_right]
        exact ⟨by decide, fun _ => ⟨hdigits, hlt, Nat.le_of_not_gt hbody⟩⟩
  | transferEncoding => simp
  | acceptEncoding => simp [Head.codings_eq, eq_comm]
  | host | userAgent | connection | other => simp [eq_comm]

theorem addField_eq_ok_iff {maxBody : Nat} {r r' : Request} {line : List Char} :
    addField maxBody r line = .ok r' ↔
      ∃ f : HeadField, line = f.line ∧ f.Legal maxBody ∧ r' = Head.complete r [f] := by
  constructor
  · intro h
    cases hread : Field.ofLine? line with
    | none => rw [addField, hread] at h; cases h
    | some field =>
      obtain ⟨f, rfl, hf, -⟩ := Field.ofLine?_eq_some_iff.mp hread
      exact ⟨f, rfl, (addField_line_eq_ok_iff hf).mp h⟩
  · rintro ⟨f, rfl, hf, rfl⟩
    exact (addField_line_eq_ok_iff hf.toIsField).mpr ⟨hf, rfl⟩

theorem addFields_eq_ok_iff {maxBody : Nat} {r r' : Request} {lines : List (List Char)} :
    addFields maxBody r lines = .ok r' ↔
      ∃ fields : List HeadField, lines = fields.map HeadField.line ∧
        (∀ f ∈ fields, f.Legal maxBody) ∧ r' = Head.complete r fields := by
  -- The request grows from line to line, so the induction is for every request to start with.
  induction lines generalizing r with
  | nil =>
    rw [addFields, Except.ok.injEq]
    constructor
    · rintro rfl
      exact ⟨[], rfl, by simp, (Head.complete_nil r).symm⟩
    · rintro ⟨fields, hlines, -, rfl⟩
      obtain rfl := List.map_eq_nil_iff.mp hlines.symm
      exact (Head.complete_nil r).symm
  | cons line lines ih =>
    constructor
    · intro h
      rw [addFields] at h
      cases hfirst : addField maxBody r line with
      | error e => rw [hfirst] at h; cases h
      | ok next =>
        rw [hfirst] at h
        obtain ⟨f, rfl, hf, rfl⟩ := addField_eq_ok_iff.mp hfirst
        obtain ⟨fields, rfl, hfields, rfl⟩ := ih.mp h
        exact ⟨f :: fields, rfl, List.forall_mem_cons.mpr ⟨hf, hfields⟩,
          (Head.complete_cons r f fields).symm⟩
    · rintro ⟨fields, hlines, hfields, rfl⟩
      obtain ⟨f, rest, rfl, rfl, rfl⟩ := List.map_eq_cons_iff.mp hlines.symm
      obtain ⟨hf, hrest⟩ := List.forall_mem_cons.mp hfields
      rw [addFields, addField_eq_ok_iff.mpr ⟨f, rfl, hf, rfl⟩]
      exact ih.mpr ⟨rest, rfl, hrest, Head.complete_cons r f rest⟩

/-! ## Heads -/

/-- The lines of a head: a request line and the fields. -/
theorem ofHead_eq_ok_iff {maxBody : Nat} {head : String} {r : Request} :
    ofHead maxBody head = .ok r ↔
      ∃ h : Head, head.toList = h.text ∧ h.Legal maxBody ∧ r = h.request := by
  constructor
  · intro h
    obtain ⟨line, lines, hcut⟩ := List.exists_cons_of_ne_nil (Text.splitLines_ne_nil head.toList)
    obtain ⟨htext, hlines⟩ := Text.splitLines_eq_cons_iff.mp hcut
    rw [ofHead, hcut] at h
    dsimp only at h
    cases hfirst : ofRequestLine line with
    | error e => rw [hfirst] at h; cases h
    | ok start =>
      rw [hfirst] at h
      obtain ⟨m, target, v, rfl, hne, hspace, rfl⟩ := ofRequestLine_eq_ok_iff.mp hfirst
      obtain ⟨fields, rfl, hfields, rfl⟩ := addFields_eq_ok_iff.mp h
      exact ⟨⟨m, target, v, fields⟩, htext, ⟨hne, hspace, hfields, hlines⟩, rfl⟩
  · rintro ⟨h, htext, hlegal, rfl⟩
    have hcut := Text.splitLines_eq_cons_iff.mpr ⟨htext, hlegal.no_lineEnd⟩
    have hfirst := ofRequestLine_eq_ok_iff.mpr
      ⟨h.method, h.target, h.version, rfl, hlegal.target_ne_nil, hlegal.no_space, rfl⟩
    rw [ofHead, hcut]
    dsimp only
    rw [Head.requestLine, hfirst]
    exact addFields_eq_ok_iff.mpr ⟨h.fields, rfl, hlegal.fields, rfl⟩

/-- The first empty line of a legal head is the one that ends it. -/
theorem firstIndex?_bytes {maxBody : Nat} {h : Head} (hlegal : h.Legal maxBody) (rest : Bytes) :
    Text.firstIndex? headEnd (h.bytes ++ rest)
      = some (Bytes.ofText (String.ofList h.text)).length := by
  rw [Head.bytes, List.append_assoc]
  refine Text.firstIndex?_text ?_ hlegal.no_lineEnd rest
  intro line hline
  obtain ⟨f, hf, rfl⟩ := List.mem_map.mp hline
  exact (hlegal.fields f hf).line_ne_nil

/-- The parser finds a request iff the buffer holds line breaks, then a legal head that is not too
long, and then anything.  The request is the one that the head stands for. -/
theorem parse_eq_some_iff_legal {maxBody : Nat} {buffer : Bytes} {r : Request} {n : Nat} :
    parse maxBody buffer = .ok (some (r, n)) ↔
      ∃ (h : Head) (rest : Bytes),
        buffer = buffer.takeWhile isLineBreak ++ (h.bytes ++ rest) ∧
        h.Legal maxBody ∧ h.bytes.length ≤ maxHead ∧
        r = h.request ∧ n = (buffer.takeWhile isLineBreak).length + h.bytes.length := by
  have hblank : buffer.takeWhile isLineBreak ++ buffer.drop (blankLength buffer) = buffer := by
    have hfirst : buffer.takeWhile isLineBreak = buffer.take (blankLength buffer) :=
      List.prefix_iff_eq_take.mp (List.takeWhile_prefix isLineBreak)
    rw [hfirst, List.take_append_drop]
  rw [parse_eq_some_iff]
  constructor
  · rintro ⟨i, head, hi, hshort, htext, hhead, rfl⟩
    obtain ⟨h, hchars, hlegal, rfl⟩ := ofHead_eq_ok_iff.mp hhead
    obtain ⟨rest, hrest⟩ := Text.exists_of_firstIndex? hi
    have hlength := Text.firstIndex?_add_length_le hi
    rw [Bytes.text?_eq_some_iff] at htext
    have hbytes : h.bytes = (buffer.drop (blankLength buffer)).take i ++ headEnd := by
      rw [Head.bytes, htext, ← hchars, String.ofList_toList]
    have hcount : h.bytes.length = i + headEnd.length := by
      rw [hbytes, List.length_append, List.length_take, Nat.min_eq_left (by omega)]
    refine ⟨h, rest, ?_, hlegal, ?_, rfl, ?_⟩
    · rw [hbytes, List.append_assoc, ← hrest, hblank]
    · rw [hcount]
      exact hshort
    · rw [hcount]
      rfl
  · rintro ⟨h, rest, hbuffer, hlegal, hshort, rfl, rfl⟩
    have hdrop : buffer.drop (blankLength buffer) = h.bytes ++ rest :=
      List.append_cancel_left (hblank.trans hbuffer)
    have hcount : h.bytes.length
        = (Bytes.ofText (String.ofList h.text)).length + headEnd.length := by
      rw [Head.bytes, List.length_append]
    refine ⟨(Bytes.ofText (String.ofList h.text)).length, String.ofList h.text, ?_, ?_, ?_,
      ofHead_eq_ok_iff.mpr ⟨h, ?_, hlegal, rfl⟩, ?_⟩
    · rw [hdrop]
      exact firstIndex?_bytes hlegal rest
    · rw [← hcount]
      exact hshort
    · rw [hdrop, Head.bytes, List.append_assoc, List.take_left, Bytes.text?_ofText]
    · exact String.toList_ofList
    · rw [hcount]
      rfl

/-! ### Heads in a buffer -/

/-- A request that is accepted is that of a legal head, which stands behind the line breaks. -/
theorem exists_head {maxBody : Nat} {buffer : Bytes} {r : Request} {n : Nat}
    (h : parse maxBody buffer = .ok (some (r, n))) :
    ∃ head : Head, head.bytes <+: buffer.drop (blankLength buffer) ∧ head.Legal maxBody ∧
      r = head.request := by
  obtain ⟨i, text, hi, -, htext, hhead, -⟩ := parse_eq_some_iff.mp h
  obtain ⟨head, hchars, hlegal, hr⟩ := ofHead_eq_ok_iff.mp hhead
  obtain ⟨rest, hrest⟩ := Text.exists_of_firstIndex? hi
  refine ⟨head, ⟨rest, ?_⟩, hlegal, hr⟩
  rw [Bytes.text?_eq_some_iff, ← String.ofList_toList (s := text), hchars] at htext
  rw [Head.bytes, List.append_assoc, ← htext, ← hrest]

/-- The field on a line: a name up to the first colon, and what stands behind it. -/
def fieldOn (line : List Char) : HeadField :=
  let name := line.takeWhile (· != ':')
  ⟨name, line.drop (name.length + 1)⟩

/-- The fields of the head at the front of a buffer, one for each line after the first. -/
def headFields (buffer : Bytes) : List HeadField :=
  let rest := buffer.drop (blankLength buffer)
  match Text.firstIndex? headEnd rest with
  | none => []
  | some i =>
    match Bytes.text? (rest.take i) with
    | none => []
    | some head => (Text.splitLines head.toList).tail.map fieldOn

theorem fieldOn_line {f : HeadField} (h : f.IsField) : fieldOn f.line = f := by
  obtain ⟨hname, hraw⟩ := Field.takeWhile_line h
  rw [fieldOn, hname]
  simp only [hraw]

/-- The fields of a legal head are found in a buffer that starts with it. -/
theorem headFields_eq {maxBody : Nat} {buffer : Bytes} {h : Head} (hlegal : h.Legal maxBody)
    (hbytes : h.bytes <+: buffer.drop (blankLength buffer)) : headFields buffer = h.fields := by
  obtain ⟨rest, hrest⟩ := hbytes
  have hfirst := firstIndex?_bytes hlegal rest
  have htext : Bytes.text?
      ((h.bytes ++ rest).take (Bytes.ofText (String.ofList h.text)).length)
        = some (String.ofList h.text) := by
    rw [Head.bytes, List.append_assoc, List.take_left, Bytes.text?_ofText]
  have hlines := Text.splitLines_eq_cons_iff.mpr ⟨rfl, hlegal.no_lineEnd⟩
  rw [headFields, ← hrest]
  simp only [hfirst, htext]
  rw [String.toList_ofList, Head.text, hlines, List.tail_cons, List.map_map]
  refine (List.map_congr_left fun f hf => ?_).trans (List.map_id h.fields)
  exact fieldOn_line (hlegal.fields f hf).toIsField

/-- The head that a request was read from. -/
def headIn (buffer : Bytes) (r : Request) : Head :=
  ⟨r.method, r.target.toList, r.version, headFields buffer⟩

/-- The head of an accepted request is legal, stands behind the line breaks and makes the
request. -/
theorem headIn_spec {maxBody : Nat} {buffer : Bytes} {r : Request} {n : Nat}
    (h : parse maxBody buffer = .ok (some (r, n))) :
    (headIn buffer r).bytes <+: buffer.drop (blankLength buffer) ∧
      (headIn buffer r).Legal maxBody ∧ r = (headIn buffer r).request := by
  obtain ⟨head, hbytes, hlegal, hr⟩ := exists_head h
  have hsame : headIn buffer r = head := by
    rw [headIn, headFields_eq hlegal hbytes, hr]
    simp only [Head.request, Head.complete, String.toList_ofList]
  rw [hsame]
  exact ⟨hbytes, hlegal, hr⟩

/-- A head starts with a letter, so there are no line breaks in front of it. -/
theorem blankLength_bytes (h : Head) (rest : Bytes) : blankLength (h.bytes ++ rest) = 0 := by
  have hfirst : ∃ first more, h.method.token.toList.flatMap String.utf8EncodeChar = first :: more ∧
      isLineBreak first = false := by
    cases h.method <;> exact ⟨_, _, rfl, rfl⟩
  obtain ⟨first, more, hletters, hbreak⟩ := hfirst
  rw [Head.bytes, Bytes.ofText_ofList, Head.text, Head.requestLine, List.append_assoc,
    List.append_assoc, List.flatMap_append, hletters]
  exact blankLength_cons_of_neg hbreak _

/-- Where a legal head that is not too long stands behind line breaks, its request is found. -/
theorem parse_bytes {maxBody : Nat} {h : Head} (hlegal : h.Legal maxBody)
    (hshort : h.bytes.length ≤ maxHead) {blank : Bytes}
    (hblank : ∀ b ∈ blank, isLineBreak b = true) (rest : Bytes) :
    parse maxBody (blank ++ (h.bytes ++ rest))
      = .ok (some (h.request, blank.length + h.bytes.length)) := by
  have hcount : blankLength (blank ++ (h.bytes ++ rest)) = blank.length := by
    rw [blankLength_append hblank, blankLength_bytes, Nat.add_zero]
  have hlength := h.length_bytes
  refine parse_eq_some_iff.mpr ⟨(Bytes.ofText (String.ofList h.text)).length,
    String.ofList h.text, ?_, ?_, ?_,
    ofHead_eq_ok_iff.mpr ⟨h, String.toList_ofList, hlegal, rfl⟩, ?_⟩
  · rw [hcount, List.drop_left]
    exact firstIndex?_bytes hlegal rest
  · rw [← hlength]
    exact hshort
  · rw [hcount, List.drop_left, Head.bytes, List.append_assoc, List.take_left, Bytes.text?_ofText]
  · rw [hcount, hlength]

/-- The head of an accepted request is what it takes behind the line breaks. -/
theorem length_headIn {maxBody : Nat} {buffer : Bytes} {r : Request} {n : Nat}
    (h : parse maxBody buffer = .ok (some (r, n))) :
    n = blankLength buffer + (headIn buffer r).bytes.length ∧
      (headIn buffer r).bytes.length ≤ maxHead := by
  obtain ⟨⟨rest, hrest⟩, hlegal, -⟩ := headIn_spec h
  obtain ⟨i, -, hi, hshort, -, -, rfl⟩ := parse_eq_some_iff.mp h
  rw [← hrest, firstIndex?_bytes hlegal rest, Option.some.injEq] at hi
  rw [Head.length_bytes, hi]
  exact ⟨rfl, hshort⟩

end Request

end ContentServer
