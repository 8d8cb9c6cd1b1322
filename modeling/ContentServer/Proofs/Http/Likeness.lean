import ContentServer.Proofs.Http.Heads
import ContentServer.Proofs.Text.Trimming
import ContentServer.Site

/-!
# Heads that are alike

The fields of a head may be written in many ways that mean the same.  Two rows of fields are *alike*
if one comes from the other by changes of three kinds.

* Fields change places, but those of one name stay in their order.
* Names are written in other letter case.
* Fields that nothing depends on are put in, taken out or replaced.

Nothing depends on a field unless it has one of five names, `essential`.  `User-Agent` is not among
them: its value is recorded and never looked at.

Of alike rows, one may stand in a head if the other may (`Alike.accepted`), and they give the same
values under each of the five names, in the same order (`Alike.raws`).  A request is made of these
values, so alike heads make requests that differ in the agent at most, and `parse_alike` says that
such requests are answered in the same way.
-/

namespace ContentServer

open Text (lineEnd)

namespace HeadField

/-! ## Changes to a row of fields -/

/-- The names of the fields that matter, in lower case. -/
def essential : List String :=
  ["host", "connection", "accept-encoding", "content-length", "transfer-encoding"]

/-- Whether a field matters. -/
def isEssential (f : HeadField) : Bool := essential.any f.isNamed

/-- A field with its name in lower case. -/
def lowered (f : HeadField) : HeadField := { f with name := Text.lower f.name }

/-- A field that makes up a line: it has a proper name, and the line ends behind it only. -/
structure IsLine (f : HeadField) : Prop extends f.IsField where
  no_lineEnd : ¬ lineEnd <:+: f.line

end HeadField

/-- Rows of fields of which the second comes from the first without a change of meaning. -/
inductive Alike : List HeadField → List HeadField → Prop where
  | refl (fields : List HeadField) : Alike fields fields
  | trans {fields between others : List HeadField} (h : Alike fields between)
      (h' : Alike between others) : Alike fields others
  /-- Fields change places, but not among those of one name. -/
  | permute {fields others : List HeadField} (hperm : fields.Perm others)
      (horder : ∀ name, fields.filter (fun f => Text.lower f.name = name)
        = others.filter fun f => Text.lower f.name = name) : Alike fields others
  /-- Names change their letter case. -/
  | recase {fields others : List HeadField}
      (h : fields.map HeadField.lowered = others.map HeadField.lowered) : Alike fields others
  /-- Fields that do not matter are put in, taken out or replaced. -/
  | amend {fields others : List HeadField}
      (h : fields.filter HeadField.isEssential = others.filter HeadField.isEssential)
      (hline : ∀ f ∈ others, f.isEssential = false → f.IsLine) : Alike fields others

/-- Two fields of different names change places. -/
theorem Alike.swap {f g : HeadField} (h : Text.lower f.name ≠ Text.lower g.name)
    (rest : List HeadField) : Alike (f :: g :: rest) (g :: f :: rest) := by
  refine .permute (List.Perm.swap g f rest) fun name => ?_
  by_cases hf : Text.lower f.name = name
  · have hg : Text.lower g.name ≠ name := fun hg => h (hf.trans hg.symm)
    simp [hf, hg]
  · simp [List.filter_cons, hf]

/-! ## Alike rows may stand in the same heads -/

namespace HeadField

variable {f g : HeadField}

theorem lower_line (f : HeadField) :
    Text.lower f.line = f.lowered.name ++ ':' :: Text.lower f.raw := by
  simp [line, Text.lower, lowered]

/-- Letter case decides neither about names nor about the ends of lines. -/
theorem IsLine.of_lowered (h : f.IsLine) (hsame : f.lowered = g.lowered) : g.IsLine := by
  have hname : Text.lower g.name = Text.lower f.name := (congrArg name hsame).symm
  have hraw : g.raw = f.raw := (congrArg raw hsame).symm
  have hmark : ∀ {c : Char}, c.toNat < 65 → c.toLower = c → c ∉ f.name → c ∉ g.name := by
    intro c hc hself hno hmem
    have hlow : c.toLower ∈ Text.lower f.name := hname ▸ List.mem_map_of_mem hmem
    obtain ⟨d, hd, heq⟩ := List.mem_map.mp hlow
    rw [hself] at heq
    exact hno (Text.eq_of_toLower hc heq ▸ hd)
  refine ⟨⟨?_, hmark (by decide) (by decide) h.no_space,
    hmark (by decide) (by decide) h.no_colon⟩, ?_⟩
  · intro hnil
    rw [hnil] at hname
    exact h.name_ne_nil (List.map_eq_nil_iff.mp hname.symm)
  · intro hend
    have hlow : lineEnd <:+: Text.lower f.line := by
      rw [lower_line, hsame, ← hraw, ← lower_line]
      exact hend.map Char.toLower
    obtain ⟨mark, hmark, heq⟩ := List.infix_map_iff.mp hlow
    obtain ⟨cr, rest, rfl, hcr, hrest⟩ := List.map_eq_cons_iff.mp heq.symm
    obtain ⟨lf, rest, rfl, hlf, hrest⟩ := List.map_eq_cons_iff.mp hrest
    obtain rfl := List.map_eq_nil_iff.mp hrest
    rw [Text.eq_of_toLower (by decide) hcr, Text.eq_of_toLower (by decide) hlf] at hmark
    exact h.no_lineEnd hmark

/-- A field that may stand in a head, with the end of its line behind it. -/
structure Accepted (maxBody : Nat) (f : HeadField) : Prop extends f.IsLine, f.Legal maxBody

theorem isNamed_congr (hsame : f.lowered = g.lowered) (name : String) :
    f.isNamed name = g.isNamed name := by
  have hname : Text.lower f.name = Text.lower g.name := congrArg HeadField.name hsame
  rw [isNamed, isNamed, hname]

theorem value_congr (hsame : f.lowered = g.lowered) : f.value = g.value := by
  have hraw : f.lowered.raw = g.lowered.raw := congrArg raw hsame
  exact congrArg Text.trim hraw

variable {maxBody : Nat}

theorem Accepted.of_lowered (h : f.Accepted maxBody) (hsame : f.lowered = g.lowered) :
    g.Accepted maxBody where
  toIsLine := h.toIsLine.of_lowered hsame
  not_transferEncoding := by
    rw [← isNamed_congr hsame]
    exact h.not_transferEncoding
  contentLength hnamed := by
    rw [← isNamed_congr hsame] at hnamed
    rw [HasNumber, number, ← value_congr hsame]
    exact h.contentLength hnamed

/-- A line whose name does not matter may stand in every head. -/
theorem IsLine.accepted (h : f.IsLine) (hother : f.isEssential = false) (maxBody : Nat) :
    f.Accepted maxBody where
  toIsLine := h
  not_transferEncoding := by
    simpa using List.any_eq_false.mp hother "transfer-encoding" (by simp [essential])
  contentLength hnamed :=
    absurd hnamed (List.any_eq_false.mp hother "content-length" (by simp [essential]))

end HeadField

/-- The fields of a legal head are such fields. -/
theorem Head.Legal.accepted {maxBody : Nat} {h : Head} (hlegal : h.Legal maxBody) :
    ∀ f ∈ h.fields, f.Accepted maxBody := fun f hf =>
  { toIsField := (hlegal.fields f hf).toIsField
    no_lineEnd := hlegal.no_lineEnd f.line (List.mem_cons_of_mem _ (List.mem_map_of_mem hf))
    not_transferEncoding := (hlegal.fields f hf).not_transferEncoding
    contentLength := (hlegal.fields f hf).contentLength }

namespace Alike

variable {fields others : List HeadField}

/-- Of alike rows, one may stand in a head if the other may. -/
theorem accepted (h : Alike fields others) {maxBody : Nat}
    (hfields : ∀ f ∈ fields, f.Accepted maxBody) : ∀ f ∈ others, f.Accepted maxBody := by
  induction h with
  | refl fields => exact hfields
  | trans _ _ ih ih' => exact ih' (ih hfields)
  | permute hperm _ => exact fun f hf => hfields f (hperm.mem_iff.mpr hf)
  | @recase fields others h =>
    intro g hg
    have hlow : g.lowered ∈ fields.map HeadField.lowered := h ▸ List.mem_map_of_mem hg
    obtain ⟨f, hf, hsame⟩ := List.mem_map.mp hlow
    exact (hfields f hf).of_lowered hsame
  | @amend fields others h hline =>
    intro f hf
    cases hessential : f.isEssential with
    | false => exact (hline f hf hessential).accepted hessential maxBody
    | true =>
      have hkept : f ∈ fields.filter HeadField.isEssential :=
        h ▸ List.mem_filter.mpr ⟨hf, hessential⟩
      exact hfields f (List.mem_filter.mp hkept).1

/-! ## Alike rows give the same values -/

/-- Alike rows give the same values under each of the five names, in the same order. -/
theorem raws (h : Alike fields others) {name : String} (hname : name ∈ HeadField.essential) :
    (Head.named name fields).map HeadField.raw = (Head.named name others).map HeadField.raw := by
  induction h with
  | refl fields => rfl
  | trans _ _ ih ih' => exact ih.trans ih'
  | permute _ horder => exact congrArg (List.map HeadField.raw) (horder name.toList)
  | recase h =>
    -- A name is looked up in lower case, so the rows may be put in lower case before.
    have hlow : ∀ row : List HeadField, (Head.named name row).map HeadField.raw
        = ((row.map HeadField.lowered).filter fun f => f.name = name.toList).map HeadField.raw := by
      intro row
      rw [List.filter_map, List.map_map]
      rfl
    rw [hlow, hlow, h]
  | amend h _ =>
    have hkept : ∀ row : List HeadField,
        Head.named name row = Head.named name (row.filter HeadField.isEssential) := by
      intro row
      rw [Head.named, Head.named, List.filter_filter]
      refine List.filter_congr fun f _ => ?_
      cases hnamed : f.isNamed name with
      | false => rfl
      | true =>
        have hessential : f.isEssential = true := List.any_eq_true.mpr ⟨name, hname, hnamed⟩
        rw [hessential]
        rfl
    rw [hkept, h, ← hkept]

/-- What is read off the values of the five names is the same for alike rows. -/
theorem map_named (h : Alike fields others) {name : String} (hname : name ∈ HeadField.essential)
    {α : Type} (read : List Char → α) :
    (Head.named name fields).map (fun f => read f.raw)
      = (Head.named name others).map fun f => read f.raw := by
  have hmap := congrArg (List.map read) (h.raws hname)
  rwa [List.map_map, List.map_map] at hmap

/-- Alike rows add the same to a request, but for the agent. -/
theorem complete_eq (h : Alike fields others) (r : Request) :
    Head.complete r others
      = { Head.complete r fields with userAgent := (Head.complete r others).userAgent } := by
  have hessential : ∀ name ∈ ["host", "connection", "accept-encoding", "content-length"],
      name ∈ HeadField.essential := by
    simp [HeadField.essential]
  have hhost : (Head.named "host" fields).map (fun f => String.ofList f.value) = _ :=
    h.map_named (hessential _ (by simp)) fun raw => String.ofList (Text.trim raw)
  have hconnection : (Head.named "connection" fields).map (fun f => Field.options f.value) = _ :=
    h.map_named (hessential _ (by simp)) fun raw => Field.options (Text.trim raw)
  have hcodings : (Head.named "accept-encoding" fields).map (fun f => Head.codingsIn f.value) = _ :=
    h.map_named (hessential _ (by simp)) fun raw => Head.codingsIn (Text.trim raw)
  have hlength : (Head.named "content-length" fields).map HeadField.number = _ :=
    h.map_named (hessential _ (by simp)) fun raw =>
      Nat.ofDigitChars 10 ((Text.trim raw).filter Char.isDigit) 0
  simp only [Head.complete, List.flatMap_def, hhost, hconnection, hcodings, hlength]
  rfl

end Alike

/-! ## Alike heads are answered in the same way -/

/-- An answer does not depend on the agent. -/
theorem Site.answer_userAgent (site : Site) (now : Moment) (request : Request) (agent : String)
    (s : State) :
    site.answer now { request with userAgent := agent } s = site.answer now request s :=
  rfl

/-- The fields of an accepted head may be changed to any that are alike, as long as the head does
not get too long.  The request that is then read has the same method, target, version, host, length
and codings, it decides in the same way about the connection, and every site answers it with the
same response and leaves the same state, with the same visits and the same cache. -/
theorem Request.parse_alike {maxBody : Nat} {buffer : Bytes} {r : Request} {n : Nat}
    (h : parse maxBody buffer = .ok (some (r, n))) :
    (headIn buffer r).bytes <+: buffer.drop (blankLength buffer) ∧
      ∀ fields : List HeadField, Alike (headIn buffer r).fields fields →
        let other : Head := { headIn buffer r with fields }
        other.bytes.length ≤ maxHead →
        ∀ (blank rest : Bytes), (∀ b ∈ blank, isLineBreak b = true) →
          ∃ r', parse maxBody (blank ++ (other.bytes ++ rest))
              = .ok (some (r', blank.length + other.bytes.length)) ∧
            (r'.method = r.method ∧ r'.target = r.target ∧ r'.version = r.version ∧
              r'.host = r.host ∧ r'.contentLength = r.contentLength ∧
              r'.keepAlive = r.keepAlive ∧ r'.codings = r.codings) ∧
            ∀ (site : Site) (now : Moment) (s : Site.State),
              site.answer now r' s = site.answer now r s := by
  obtain ⟨hbytes, hlegal, hr⟩ := headIn_spec h
  refine ⟨hbytes, ?_⟩
  intro fields halike other hshort blank rest hblank
  have haccepted := halike.accepted hlegal.accepted
  have hother : other.Legal maxBody :=
    { target_ne_nil := hlegal.target_ne_nil
      no_space := hlegal.no_space
      fields := fun f hf => (haccepted f hf).toLegal
      no_lineEnd := by
        refine List.forall_mem_cons.mpr ⟨hlegal.no_lineEnd _ List.mem_cons_self, ?_⟩
        intro line hline
        obtain ⟨f, hf, rfl⟩ := List.mem_map.mp hline
        exact (haccepted f hf).no_lineEnd }
  have hsame : other.request = { r with userAgent := other.request.userAgent } := by
    conv_rhs => rw [hr]
    exact halike.complete_eq _
  refine ⟨other.request, parse_bytes hother hshort hblank rest, ?_, ?_⟩
  · rw [hsame]
    exact ⟨rfl, rfl, rfl, rfl, rfl, rfl, rfl⟩
  · intro site now s
    rw [hsame]
    exact site.answer_userAgent now r _ s

/-- A head with one field replaced, two in changed places and names in other letter case. -/
theorem Request.parse_of_a_changed_head :
    let buffer := Bytes.ofText "GET / HTTP/1.1\r\nHost: h\r\nAccept-Encoding: br\r\nA: 1\r\n\r\n"
    let r : Request := { method := .get, target := "/", version := .v11, host := "h",
                         codings := [.br] }
    let fields : List HeadField := [⟨"ACCEPT-encoding".toList, " br".toList⟩,
      ⟨"HOST".toList, " h".toList⟩, ⟨"User-Agent".toList, " u".toList⟩]
    let other : Head := ⟨.get, "/".toList, .v11, fields⟩
    parse 20 buffer = .ok (some (r, 54)) ∧ Alike (headIn buffer r).fields fields ∧
      other.bytes.length = 63 ∧
      ∃ r', parse 20 other.bytes = .ok (some (r', 63)) ∧ r'.host = "h" ∧ r'.codings = [.br] ∧
        ∀ (site : Site) (now : Moment) (s : Site.State),
          site.answer now r' s = site.answer now r s := by
  have hparse : parse 20 (Bytes.ofText
        "GET / HTTP/1.1\r\nHost: h\r\nAccept-Encoding: br\r\nA: 1\r\n\r\n")
      = .ok (some ({ method := .get, target := "/", version := .v11, host := "h",
                     codings := [.br] }, 54)) := rfl
  have hfields : headFields (Bytes.ofText
        "GET / HTTP/1.1\r\nHost: h\r\nAccept-Encoding: br\r\nA: 1\r\n\r\n")
      = [⟨"Host".toList, " h".toList⟩, ⟨"Accept-Encoding".toList, " br".toList⟩,
          ⟨"A".toList, " 1".toList⟩] := rfl
  have htext : (⟨.get, "/".toList, .v11, [⟨"ACCEPT-encoding".toList, " br".toList⟩,
        ⟨"HOST".toList, " h".toList⟩, ⟨"User-Agent".toList, " u".toList⟩]⟩ : Head).text
      = "GET / HTTP/1.1\r\nACCEPT-encoding: br\r\nHOST: h\r\nUser-Agent: u".toList := by decide
  have hreplaced : Alike
      [⟨"Host".toList, " h".toList⟩, ⟨"Accept-Encoding".toList, " br".toList⟩,
        ⟨"A".toList, " 1".toList⟩]
      [⟨"Host".toList, " h".toList⟩, ⟨"Accept-Encoding".toList, " br".toList⟩,
        ⟨"User-Agent".toList, " u".toList⟩] := by
    refine .amend (by decide) ?_
    simp only [List.forall_mem_cons]
    refine ⟨fun h => absurd h (by decide), fun h => absurd h (by decide), fun _ => ?_, by simp⟩
    exact ⟨⟨by decide, by decide, by decide⟩, by decide⟩
  have hrecased : Alike
      [⟨"Accept-Encoding".toList, " br".toList⟩, ⟨"Host".toList, " h".toList⟩,
        ⟨"User-Agent".toList, " u".toList⟩]
      [⟨"ACCEPT-encoding".toList, " br".toList⟩, ⟨"HOST".toList, " h".toList⟩,
        ⟨"User-Agent".toList, " u".toList⟩] := .recase (by decide)
  intro buffer r fields other
  have halike : Alike (headIn buffer r).fields fields := by
    rw [headIn, hfields]
    exact (hreplaced.trans (.swap (by decide) _)).trans hrecased
  have hlength : other.bytes.length = 63 := by
    rw [Head.bytes, htext, String.ofList_toList]
    rfl
  obtain ⟨-, hchanged⟩ := parse_alike hparse
  obtain ⟨r', hparse', ⟨-, -, -, hhost, -, -, hcodings⟩, hanswer⟩ :=
    hchanged fields halike (hlength.trans_le (by decide)) [] [] (by simp)
  rw [List.append_nil] at hparse'
  change parse 20 other.bytes = .ok (some (r', 0 + other.bytes.length)) at hparse'
  rw [hlength] at hparse'
  exact ⟨hparse, halike, hlength, r', hparse', hhost, hcodings, hanswer⟩

end ContentServer
