import ContentServer.Proofs.Http.Verdicts
import ContentServer.Proofs.Site.Answers
import ContentServer.Proofs.Site.Files

/-!
# Requests for heads

A client that wants to know about a resource without getting it sends `HEAD` in place of `GET`.
Unless the request names a document that is rendered, it then gets the answer to `GET` without its
body: the same bytes up to the empty line, and nothing behind them (`Site.answer_asHead`).

In the bytes of a head, `Request.asHead` puts the one word in place of the other.  `HEAD` has one
byte more than `GET`, so a head that is just as long as a head may be becomes too long.  This is the
only difference that the word makes to the parser.
-/

namespace ContentServer

open Text (lineEnd)

/-! ## The word in front of a head -/

theorem Text.lineEnd_infix_append_iff {word rest : List Char} (h : '\r' ∉ word) :
    lineEnd <:+: word ++ rest ↔ lineEnd <:+: rest := by
  induction word with
  | nil => rfl
  | cons c word ih =>
    rw [List.mem_cons, not_or] at h
    have hfirst : ¬ lineEnd <+: c :: (word ++ rest) := by
      intro hprefix
      exact h.1 (List.cons_prefix_cons.mp hprefix).1
    rw [List.cons_append, List.infix_cons_iff, ih h.2]
    exact or_iff_right hfirst

namespace Head

variable {maxBody : Nat} {h : Head}

/-- The head with another method. -/
def withMethod (h : Head) (m : Method) : Head := { h with method := m }

theorem request_withMethod (h : Head) (m : Method) :
    (h.withMethod m).request = { h.request with method := m } := rfl

/-- Behind the method the bytes of a head do not depend on it. -/
theorem exists_bytes_withMethod (h : Head) :
    ∃ rest, ∀ m : Method, (h.withMethod m).bytes = Bytes.ofText m.token ++ rest := by
  refine ⟨Bytes.ofText (String.ofList (' ' :: (h.target ++ ' ' :: h.version.token.toList)
    ++ Text.after lineEnd (h.fields.map HeadField.line))) ++ Request.headEnd, fun m => ?_⟩
  rw [bytes, text, requestLine, withMethod, List.append_assoc, String.ofList_append,
    String.ofList_toList, Bytes.ofText_append, List.append_assoc]

/-- The method has no part in whether a head may be written. -/
theorem Legal.withMethod (hlegal : h.Legal maxBody) (m : Method) :
    (h.withMethod m).Legal maxBody where
  target_ne_nil := hlegal.target_ne_nil
  no_space := hlegal.no_space
  fields := hlegal.fields
  no_lineEnd := by
    have htoken : ∀ m : Method, '\r' ∉ m.token.toList := by
      intro m
      cases m <;> decide
    obtain ⟨hline, hfields⟩ := List.forall_mem_cons.mp hlegal.no_lineEnd
    refine List.forall_mem_cons.mpr ⟨?_, hfields⟩
    rw [requestLine, Text.lineEnd_infix_append_iff (htoken _)] at hline ⊢
    exact hline

end Head

namespace Request

variable {maxBody : Nat} {buffer : Bytes} {r : Request} {n : Nat}

/-- A buffer with `HEAD` in place of the `GET` behind the line breaks. -/
def asHead (buffer : Bytes) : Bytes :=
  buffer.take (blankLength buffer) ++
    (Bytes.ofText "HEAD" ++ buffer.drop (blankLength buffer + (Bytes.ofText "GET").length))

/-- Where a buffer starts with a head, `asHead` changes its method and nothing else. -/
theorem asHead_eq (h : parse maxBody buffer = .ok (some (r, n))) (hget : r.method = .get) :
    Bytes.ofText "GET" <+: buffer.drop (blankLength buffer) ∧
      ((headIn buffer r).withMethod .head).bytes.length = (headIn buffer r).bytes.length + 1 ∧
      ∃ rest, asHead buffer = buffer.take (blankLength buffer)
        ++ (((headIn buffer r).withMethod .head).bytes ++ rest) := by
  obtain ⟨⟨rest, hrest⟩, -, -⟩ := headIn_spec h
  obtain ⟨tail, htail⟩ := (headIn buffer r).exists_bytes_withMethod
  have hbytes : (headIn buffer r).bytes = Bytes.ofText "GET" ++ tail := by
    rw [← show Method.get.token = "GET" from rfl, ← htail, ← hget]
    rfl
  have hhead : ((headIn buffer r).withMethod .head).bytes = Bytes.ofText "HEAD" ++ tail :=
    htail .head
  rw [hhead, hbytes]
  refine ⟨⟨tail ++ rest, ?_⟩, ?_, rest, ?_⟩
  · rw [← List.append_assoc, ← hbytes, hrest]
  · rw [List.length_append, List.length_append, Nat.add_right_comm]
    rfl
  · rw [asHead, ← List.drop_drop, ← hrest, hbytes, List.append_assoc, List.drop_left,
      List.append_assoc]

/-- With `HEAD` in place of `GET` the same request is read, but for its method, if there is room for
one more byte.  Otherwise the head is too long. -/
theorem parse_asHead (h : parse maxBody buffer = .ok (some (r, n))) (hget : r.method = .get) :
    parse maxBody (asHead buffer)
      = if n - blankLength buffer < maxHead then .ok (some ({ r with method := .head }, n + 1))
        else .error .headTooLarge := by
  obtain ⟨-, hlegal, hr⟩ := headIn_spec h
  obtain ⟨hn, hmax⟩ := length_headIn h
  obtain ⟨-, hlength, rest, hbuffer⟩ := asHead_eq h hget
  have hother := hlegal.withMethod .head
  have hblank : ∀ b ∈ buffer.take (blankLength buffer), isLineBreak b = true :=
    fun b hb => isLineBreak_of_mem_take hb
  have hcount : (buffer.take (blankLength buffer)).length = blankLength buffer :=
    List.length_take_of_le (blankLength_le buffer)
  have hsize : n - blankLength buffer = (headIn buffer r).bytes.length := by omega
  rw [hsize]
  -- The other head is longer by one byte, and nothing else decides whether it is accepted.
  split
  · next hroom =>
    rw [hbuffer, parse_bytes hother (by omega) hblank rest, Head.request_withMethod, ← hr, hcount,
      hlength, hn]
    rfl
  · next hfull =>
    have hfirst := firstIndex?_bytes hother rest
    have htext := ((headIn buffer r).withMethod .head).length_bytes
    rw [parse_eq_headTooLarge_iff, hbuffer, blankLength_append hblank, blankLength_bytes,
      Nat.add_zero, List.drop_left]
    constructor
    · simp only [List.length_append]
      omega
    · intro i hi
      rw [hfirst, Option.some.injEq] at hi
      omega

/-! ## Where `HEAD` leads -/

/-- Unless it names a document, a request leads to a file or is refused for its target. -/
theorem destination_of_plain (hmethod : r.method = .get ∨ r.method = .head)
    (hplain : ¬ r.NamesDocument) :
    r.destination
      = if Destination.isLegalTarget r.target then .file r.path else .refused .target := by
  split
  · next hlegal =>
    obtain ⟨hslash, hup⟩ := isLegalTarget_iff.mp hlegal
    exact AsksForFile.destination ⟨hmethod, hslash, hup, fun _ => hplain⟩
  · next hillegal =>
    rw [Bool.not_eq_true] at hillegal
    rcases hmethod with h | h <;> simp [destination, h, hillegal]

end Request

namespace Site

variable {r : Request}

theorem serveFile_head (site : Site) (now : Moment) (r : Request) (path : String) :
    site.serveFile now { r with method := .head } path
      = { site.serveFile now r path with body := .empty } := by
  rw [serveFile, serveFile]
  cases site.files.look (filePath site.docRoot path) with
  | ok node => cases node <;> rfl
  | error fault => cases fault <;> rfl

/-- The answer to `HEAD` is the answer to `GET` without its body. -/
theorem answer_head (site : Site) (now : Moment) (s : State) (hget : r.method = .get)
    (hplain : ¬ r.NamesDocument) :
    site.answer now { r with method := .head } s
      = ({ (site.answer now r s).1 with body := .empty }, (site.answer now r s).2) := by
  have hr := Request.destination_of_plain (Or.inl hget) hplain
  have hhead : Request.destination { r with method := .head }
      = if Destination.isLegalTarget r.target then .file r.path else .refused .target :=
    Request.destination_of_plain (Or.inr rfl) hplain
  cases hlegal : Destination.isLegalTarget r.target with
  | true =>
    rw [hlegal, if_pos rfl] at hr hhead
    rw [answer, answer, hr, hhead]
    exact congrArg (·, s) (serveFile_head site now r r.path)
  | false =>
    rw [hlegal, if_neg Bool.false_ne_true] at hr hhead
    rw [answer, answer, hr, hhead]
    rfl

/-- Let a head be accepted that has `GET` and names no document to be rendered.  With `HEAD` in its
place the same request is read, unless the head is as long as a head may be: then it is too long.
Whatever a site answers to the one it answers to the other: the same head, with as many bytes behind
it as it announces for `GET`, and with none for `HEAD`. -/
theorem answer_asHead {maxBody : Nat} {buffer : Bytes} {n : Nat}
    (h : Request.parse maxBody buffer = .ok (some (r, n))) (hget : r.method = .get)
    (hplain : ¬ r.NamesDocument) :
    Bytes.ofText "GET" <+: buffer.drop (Request.blankLength buffer) ∧
    Request.parse maxBody (Request.asHead buffer)
      = (if n - Request.blankLength buffer < Request.maxHead
          then .ok (some ({ r with method := .head }, n + 1)) else .error .headTooLarge) ∧
    ∀ (site : Site) (now : Moment) (s : State),
      let got := (site.answer now r s).1
      let mirrored := (site.answer now { r with method := .head } s).1
      mirrored = { got with body := .empty } ∧
      Bytes.ofText mirrored.head = Bytes.ofText got.head ∧
      mirrored.write = (Bytes.ofText got.head, .ok 0) ∧
      ∃ body, got.write = (Bytes.ofText got.head ++ body, .ok body.length) ∧
        body.length = got.contentLength ∧
        Reply.announced? (Bytes.ofText got.head) = some got.contentLength := by
  refine ⟨(Request.asHead_eq h hget).1, Request.parse_asHead h hget, fun site now s => ?_⟩
  intro got mirrored
  have hmirrored : mirrored = { got with body := .empty } :=
    congrArg Prod.fst (answer_head site now s hget hplain)
  have hanswer := site.answer_answer now r s
  obtain ⟨body, hwrite, hlength⟩ := hanswer.write_eq
  rw [if_neg (by rw [hget]; decide)] at hlength
  rw [hmirrored]
  refine ⟨rfl, rfl, ?_, body, hwrite, hlength, Response.announced?_head hanswer.framed.contentType⟩
  exact Prod.ext (List.append_nil _) rfl

/-- A file behind line breaks, for a client that wants the connection to be closed. -/
theorem answer_asHead_in_sample :
    let buffer := Bytes.ofText "\r\nGET /f HTTP/1.0\r\n\r\n"
    let r : Request := { method := .get, target := "/f", version := .v10 }
    let site : Site :=
      ⟨"/a", FileTree.sample, fun _ _ _ => .text "page", {}, fun _ => Codec.failing, {}⟩
    let s : State := { cache := ⟨1, []⟩ }
    Request.parse 20 buffer = .ok (some (r, 21)) ∧ r.method = .get ∧ ¬ r.NamesDocument ∧
      Request.asHead buffer = Bytes.ofText "\r\nHEAD /f HTTP/1.0\r\n\r\n" ∧
      Request.parse 20 (Request.asHead buffer) = .ok (some ({ r with method := .head }, 22)) ∧
      (site.answer ⟨0, 0⟩ { r with method := .head } s).1.write
        = (Bytes.ofText (site.answer ⟨0, 0⟩ r s).1.head, .ok 0) := by
  intro buffer r site s
  have hparse : Request.parse 20 buffer = .ok (some (r, 21)) := by decide +kernel
  have hplain : ¬ r.NamesDocument := by decide
  obtain ⟨-, hhead, hanswer⟩ := answer_asHead hparse rfl hplain
  exact ⟨hparse, rfl, hplain, by decide, hhead, (hanswer site ⟨0, 0⟩ s).2.2.1⟩

/-! ## A head without room for one more byte -/

/-- A head with a field of some letters. -/
def paddedHead (letters : Nat) : Head :=
  ⟨.get, "/a".toList, .v11, [⟨['X'], List.replicate letters 'a'⟩]⟩

theorem legal_paddedHead (maxBody letters : Nat) : (paddedHead letters).Legal maxBody := by
  have hname : FieldName.ofText ['X'] = .other := by decide
  have hline : ¬ lineEnd <:+: (⟨.get, "/a".toList, .v11, []⟩ : Head).requestLine := by decide
  constructor
  · exact (by decide : "/a".toList ≠ [])
  · exact (by decide : ' ' ∉ "/a".toList)
  · refine List.forall_mem_singleton.mpr (HeadField.legal_iff.mpr ⟨⟨?_, ?_, ?_⟩, ?_⟩)
    · exact (by decide : ['X'] ≠ [])
    · exact (by decide : ' ' ∉ ['X'])
    · exact (by decide : ':' ∉ ['X'])
    · simp [hname]
  · refine List.forall_mem_cons.mpr ⟨hline, List.forall_mem_singleton.mpr fun hend => ?_⟩
    have hmem : '\r' ∈ 'X' :: ':' :: List.replicate letters 'a' := hend.subset List.mem_cons_self
    simp [List.mem_replicate] at hmem

theorem request_paddedHead (letters : Nat) :
    (paddedHead letters).request = { method := .get, target := "/a", version := .v11 } := by
  have hname : FieldName.ofText ['X'] = .other := by decide
  rw [Head.request, paddedHead, Head.complete_singleton]
  simp only [hname, String.ofList_toList]

theorem bytes_paddedHead (letters : Nat) :
    (paddedHead letters).bytes
      = Bytes.ofText "GET /a HTTP/1.1\r\nX:" ++ List.replicate letters 97 ++ Request.headEnd := by
  have hline : (⟨.get, "/a".toList, .v11, []⟩ : Head).requestLine = "GET /a HTTP/1.1".toList := by
    decide
  have hsplit : "GET /a HTTP/1.1\r\nX:".toList = "GET /a HTTP/1.1".toList ++ "\r\nX:".toList := by
    decide
  have hfront : (paddedHead letters).text
      = "GET /a HTTP/1.1\r\nX:".toList ++ List.replicate letters 'a' := by
    rw [hsplit, ← hline, List.append_assoc]
    simp [Head.text, Head.requestLine, paddedHead, HeadField.line, Text.after, lineEnd]
  have hletter : String.utf8EncodeChar 'a' = [97] := by decide
  have hpadding : Bytes.ofText (String.ofList (List.replicate letters 'a'))
      = List.replicate letters 97 := by
    rw [Bytes.ofText_ofList, List.flatMap_replicate, hletter, List.flatten_replicate_singleton]
  rw [Head.bytes, hfront, String.ofList_append, String.ofList_toList, Bytes.ofText_append, hpadding]

/-- A head that is as long as a head may be, for a file that is missing.  With `HEAD` in place of
`GET` it is refused, and the refusal has a head of its own. -/
theorem asHead_without_room :
    let buffer := Bytes.ofText "GET /a HTTP/1.1\r\nX:" ++ List.replicate 8169 97 ++ Request.headEnd
    let r : Request := { method := .get, target := "/a", version := .v11 }
    let site : Site :=
      ⟨"/", FileTree.sample, fun _ _ _ => .text "page", {}, fun _ => Codec.failing, {}⟩
    let s : State := { cache := ⟨1, []⟩ }
    let missing := (site.answer ⟨0, 0⟩ r s).1
    let refusal := Response.protocolError (.request .headTooLarge) 0
    Request.parse 1048576 buffer = .ok (some (r, 8192)) ∧ r.method = .get ∧ ¬ r.NamesDocument ∧
      missing = .notFound r 0 ∧
      Request.parse 1048576 (Request.asHead buffer) = .error .headTooLarge ∧
      Bytes.ofText refusal.head ≠ Bytes.ofText missing.head := by
  intro buffer r site s missing refusal
  have hbuffer : (paddedHead 8169).bytes = buffer := bytes_paddedHead 8169
  have hlength : (paddedHead 8169).bytes.length = 8192 := by
    rw [hbuffer, List.length_append, List.length_append, List.length_replicate]
    rfl
  have hparse : Request.parse 1048576 buffer = .ok (some (r, 8192)) := by
    have hfound := Request.parse_bytes (legal_paddedHead 1048576 8169)
      (hlength.trans_le (by decide)) (fun b hb => absurd hb (List.not_mem_nil)) []
    rw [List.nil_append, List.append_nil, hlength, request_paddedHead, hbuffer] at hfound
    exact hfound
  have hmissing : missing = .notFound r 0 := by decide +kernel
  refine ⟨hparse, rfl, by decide, hmissing, ?_, ?_⟩
  · have hblank : Request.blankLength buffer = 0 := by
      have := Request.blankLength_bytes (paddedHead 8169) []
      rwa [List.append_nil, hbuffer] at this
    rw [Request.parse_asHead hparse rfl, hblank]
    rfl
  · intro hheads
    have hlines := congrArg (fun head => (Reply.linesOf head).head?) hheads
    rw [hmissing, Response.linesOf_head MediaType.not_mem_html,
      Response.linesOf_head MediaType.not_mem_html] at hlines
    exact absurd hlines (by decide)

end Site

end ContentServer
