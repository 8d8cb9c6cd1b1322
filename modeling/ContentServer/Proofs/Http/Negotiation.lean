import ContentServer.Proofs.Http.Writing

/-!
# Content negotiation

A rendered document is sent in one of the codings that the request lists, or as it is.  Which of the
two is a matter of the request, of the encoder, and of whether documents are encoded at all.  What
the client makes of the reply is always the document.

The client only sees bytes.  `Reply.valuesOf` reads the fields of a name off a head, and
`Reply.document?` undoes the coding that the head names.  So the head may name a coding only if the
body has it, also where the encoder has failed (`Response.Encodes`).  `Response.html_negotiated`
puts together what holds of a rendered document.
-/

namespace ContentServer

/-! ## The preferred coding -/

namespace Coding

variable {listed : List Coding} {c : Coding}

/-- The coding that is preferred among the listed ones. -/
inductive Preferred (listed : List Coding) : Coding → Prop where
  | gzip (h : .gzip ∈ listed) : Preferred listed .gzip
  | deflate (h : .deflate ∈ listed) (hgzip : .gzip ∉ listed) : Preferred listed .deflate
  | br (h : .br ∈ listed) (hgzip : .gzip ∉ listed) (hdeflate : .deflate ∉ listed) :
      Preferred listed .br

theorem Preferred.choose (h : Preferred listed c) : choose listed = some c := by
  cases h with
  | gzip h => simp [Coding.choose, all, h]
  | deflate h hgzip => simp [Coding.choose, all, h, hgzip]
  | br h hgzip hdeflate => simp [Coding.choose, all, h, hgzip, hdeflate]

theorem choose_eq_some_iff : choose listed = some c ↔ Preferred listed c := by
  refine ⟨fun h => ?_, Preferred.choose⟩
  have hsame : ∀ {other}, Preferred listed other → Preferred listed c := by
    intro other hother
    rw [hother.choose, Option.some.injEq] at h
    exact h ▸ hother
  by_cases hgzip : .gzip ∈ listed
  · exact hsame (.gzip hgzip)
  · by_cases hdeflate : .deflate ∈ listed
    · exact hsame (.deflate hdeflate hgzip)
    · by_cases hbr : .br ∈ listed
      · exact hsame (.br hbr hgzip hdeflate)
      · simp [Coding.choose, all, hgzip, hdeflate, hbr] at h

/-- A coding is found by its name. -/
theorem find?_token (c : Coding) :
    (all.find? fun other => other.token.toList = c.token.toList) = some c := by
  cases c <;> decide

end Coding

/-! ## What a client makes of a reply -/

namespace Reply

/-- The values of the fields of a name, given in lower case. -/
def valuesOf (name : String) (head : Bytes) : List (List Char) :=
  (((linesOf head).tail.filterMap Field.ofLine?).filter
    fun field => Text.lower field.name = name.toList).map Field.value

/-- The document that a client makes of a reply.  It undoes the coding that the head names, if the
head names one. -/
def document? (codecs : Codecs) (reply : Reply) : Option Bytes :=
  match valuesOf "content-encoding" reply.head with
  | [] => some reply.body
  | [value] =>
    match Coding.all.find? fun c => c.token.toList = value with
    | none => none
    | some c => (codecs c).decode reply.body
  | _ => none

end Reply

namespace Response

variable {codecs : Codecs} {request : Request} {wall : Nat} {document : String} {compress : Bool}
variable {r : Response} {c : Coding}

/-- The fields of a name are read off a head as they were written. -/
theorem valuesOf_head (htype : '\r' ∉ r.contentType.toList) (name : String) :
    Reply.valuesOf name (Bytes.ofText r.head)
      = (r.fields.filter (HeadField.isNamed name)).map HeadField.value := by
  have hempty : [[], []].filterMap Field.ofLine? = [] := rfl
  rw [Reply.valuesOf, linesOf_head htype, List.tail_cons, List.filterMap_append,
    filterMap_ofLine? r.isField_fields, hempty, List.append_nil, List.filter_map, List.map_map]
  rfl

theorem value_token (c : Coding) : (field "Content-Encoding" c.token).value = c.token.toList := by
  cases c <;> decide

/-- A head names the coding of its response. -/
theorem valuesOf_contentEncoding (htype : '\r' ∉ r.contentType.toList) :
    Reply.valuesOf "content-encoding" (Bytes.ofText r.head)
      = r.coding.toList.map fun c => c.token.toList := by
  rw [valuesOf_head htype]
  cases hcoding : r.coding with
  | none =>
    rw [fields, hcoding]
    rfl
  | some c =>
    rw [fields, hcoding, Option.toList_some, List.map_singleton, ← value_token]
    rfl

/-- Where a coding is named, other replies to the same request are announced too. -/
theorem valuesOf_vary (htype : '\r' ∉ r.contentType.toList) :
    Reply.valuesOf "vary" (Bytes.ofText r.head)
      = r.coding.toList.map fun _ => "Accept-Encoding".toList := by
  rw [valuesOf_head htype]
  cases hcoding : r.coding with
  | none =>
    rw [fields, hcoding]
    rfl
  | some c =>
    rw [fields, hcoding]
    rfl

/-! ## Encoding -/

/-- What stands for a document in a coding, or without one. -/
inductive Encodes (codecs : Codecs) (document : Bytes) : Option Coding → Bytes → Prop where
  | plain : Encodes codecs document none document
  | coded {c : Coding} {encoded : Bytes} (h : (codecs c).encode document = some encoded) :
      Encodes codecs document (some c) encoded

theorem encode_encodes (codecs : Codecs) (wanted : Option Coding) (document : Bytes) :
    Encodes codecs document (encode codecs wanted document).1
      (encode codecs wanted document).2 := by
  cases wanted with
  | none => exact .plain
  | some c =>
    simp only [encode]
    cases hencoded : (codecs c).encode document with
    | none => exact .plain
    | some encoded => exact .coded hencoded

/-- A coding is used if it is wanted and its encoder does not fail. -/
theorem fst_encode_eq_some_iff {wanted : Option Coding} {document : Bytes} :
    (encode codecs wanted document).1 = some c ↔
      wanted = some c ∧ ∃ encoded, (codecs c).encode document = some encoded := by
  cases wanted with
  | none => simp [encode]
  | some w =>
    simp only [encode]
    cases hencoded : (codecs w).encode document with
    | none =>
      refine iff_of_false nofun ?_
      rintro ⟨hwanted, encoded, h⟩
      cases hwanted
      rw [hencoded] at h
      cases h
    | some encoded =>
      constructor
      · rintro ⟨⟩
        exact ⟨rfl, encoded, hencoded⟩
      · exact fun h => h.1

/-- The coding that a head names is undone. -/
theorem document?_of_encodes {content encoded : Bytes} (htype : '\r' ∉ r.contentType.toList)
    (h : Encodes codecs content r.coding encoded) :
    Reply.document? codecs ⟨Bytes.ofText r.head, encoded⟩ = some content := by
  rw [Reply.document?, valuesOf_contentEncoding htype]
  generalize hcoding : r.coding = coding at h
  cases h with
  | plain => rfl
  | @coded c _ hencoded =>
    -- The client finds the codec by the name in the head, and it is the one that was used.
    simp only [Option.toList_some, List.map_singleton, Coding.find?_token]
    exact (codecs c).decode_encode hencoded

/-! ## Rendered documents -/

/-- A response that carries a document for a request. -/
structure Negotiated (codecs : Codecs) (request : Request) (document : String) (compress : Bool)
    (r : Response) : Prop where
  /-- The coding is the preferred one of those that the request lists. -/
  coding_iff : ∀ c, r.coding = some c ↔
    compress = true ∧ Coding.Preferred request.codings c ∧
      ∃ encoded, (codecs c).encode (Bytes.ofText document) = some encoded
  /-- The head names it and no other. -/
  named : Reply.valuesOf "content-encoding" (Bytes.ofText r.head)
    = r.coding.toList.map fun c => c.token.toList
  vary_iff : Reply.valuesOf "vary" (Bytes.ofText r.head) ≠ [] ↔
    Reply.valuesOf "content-encoding" (Bytes.ofText r.head) ≠ []
  /-- The body is the document in this coding, or as it is, and the head has its length. -/
  body : ∃ encoded, Encodes codecs (Bytes.ofText document) r.coding encoded ∧
    r.contentLength = encoded.length ∧
    Reply.announced? (Bytes.ofText r.head) = some encoded.length ∧
    r.body = bodyFor request encoded
  /-- A client makes the document of it. -/
  decoded : request.method ≠ .head →
    Reply.document? codecs (Reply.ofResponse r) = some (Bytes.ofText document)

theorem html_negotiated (codecs : Codecs) (request : Request) (wall : Nat) (document : String)
    (compress : Bool) :
    Negotiated codecs request document compress
      (html codecs request wall document compress) := by
  have hhtml : '\r' ∉ (html codecs request wall document compress).contentType.toList :=
    MediaType.not_mem_html
  have hencodes : Encodes codecs (Bytes.ofText document)
      (html codecs request wall document compress).coding _ :=
    encode_encodes codecs (if compress then Coding.choose request.codings else none)
      (Bytes.ofText document)
  constructor
  · intro c
    have hcoding : (html codecs request wall document compress).coding = some c ↔ _ :=
      fst_encode_eq_some_iff
    rw [hcoding]
    cases compress with
    | false => simp
    | true => rw [if_pos rfl, Coding.choose_eq_some_iff, and_iff_right rfl]
  · exact valuesOf_contentEncoding hhtml
  · rw [valuesOf_vary hhtml, valuesOf_contentEncoding hhtml, Ne, Ne, List.map_eq_nil_iff,
      List.map_eq_nil_iff]
  · exact ⟨_, hencodes, rfl, announced?_head hhtml, rfl⟩
  · intro hmethod
    have hbody : (html codecs request wall document compress).body.write.1
        = (encode codecs (if compress then Coding.choose request.codings else none)
            (Bytes.ofText document)).2 := by
      show (bodyFor request _).write.1 = _
      rw [write_bodyFor, if_neg hmethod]
      rfl
    rw [Reply.ofResponse, hbody]
    exact document?_of_encodes hhtml hencodes

end Response

end ContentServer
