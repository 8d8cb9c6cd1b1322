import ContentServer.Proofs.Http.Framing

/-!
# Writing responses

A response is written as its head with some bytes behind it, and the writer says how many bytes
these were.  It says so only if they are as many as the head announces, or if there are none
because the request was a `HEAD`.

The one response that can fall short is a file.  Its length is taken when it is opened, and what is
sent is what is there when it is read, but never more than was announced.  So a file that has grown
is cut off, and a file that has shrunk is a failure.

The head ends with the only empty line in it, so a client that looks for the empty line finds the
body there.
-/

namespace ContentServer.Response

variable {codecs : Codecs} {wall : Nat} {request? : Option Request} {request : Request}
variable {r : Response} {content : Bytes} {m : Nat}

/-- The responses that are made, and the request that each of them answers if there is one. -/
inductive Built (codecs : Codecs) (wall : Nat) : Option Request → Response → Prop where
  | badRequest (request : Request) (why : String) :
      Built codecs wall (some request) (.badRequest request wall why)
  | notFound (request : Request) : Built codecs wall (some request) (.notFound request wall)
  | serverError (request : Request) (what : String) :
      Built codecs wall (some request) (.serverError request wall what)
  | protocolError (fault : Fault) : Built codecs wall none (.protocolError fault wall)
  | html (request : Request) (document : String) (compress : Bool) :
      Built codecs wall (some request) (.html codecs request wall document compress)
  | file (request : Request) (content : Bytes) (length : Nat) (mediaType : String) :
      Built codecs wall (some request) (.file request wall content length mediaType)

/-! ## Bodies -/

theorem write_bodyFor (request : Request) (content : Bytes) :
    (bodyFor request content).write
      = if request.method = .head then ([], .ok 0) else (content, .ok content.length) := by
  rw [bodyFor]
  split <;> rfl

/-- A file is sent as far as it goes, and no farther than it was announced. -/
theorem write_file_body (content : Bytes) (length : Nat) :
    (Body.file content length).write
      = (content.take length,
          if content.length < length then .error (shrunk content.length length)
          else .ok length) := by
  rw [Body.write, List.length_take]
  by_cases hshrunk : content.length < length
  · rw [Nat.min_eq_right hshrunk.le, if_pos hshrunk, if_pos hshrunk]
  · rw [Nat.min_eq_left (Nat.le_of_not_lt hshrunk), if_neg (Nat.lt_irrefl length), if_neg hshrunk]

theorem write_file_of_ne_head (h : request.method ≠ .head) (content : Bytes) (length : Nat)
    (mediaType : String) :
    (file request wall content length mediaType).write
      = (Bytes.ofText (file request wall content length mediaType).head ++ content.take length,
          if content.length < length then .error (shrunk content.length length)
          else .ok length) := by
  rw [write]
  simp only [file, if_neg h, write_file_body]

theorem write_file_of_head (h : request.method = .head) (content : Bytes) (length : Nat)
    (mediaType : String) :
    (file request wall content length mediaType).write
      = (Bytes.ofText (file request wall content length mediaType).head, .ok 0) := by
  rw [write]
  simp only [file, if_pos h, Body.write, List.append_nil]

/-! ## The count -/

/-- The number of bytes behind the head is the announced one, or there are none for `HEAD`. -/
def Counts (request? : Option Request) (r : Response) : Prop :=
  ∀ m, r.body.write.2 = .ok m →
    r.body.write.1.length = m ∧
      (m = r.contentLength ∨ m = 0 ∧ ∃ request ∈ request?, request.method = .head)

theorem counts_of_bodyFor (hbody : r.body = bodyFor request content)
    (hlength : r.contentLength = content.length) : Counts (some request) r := by
  intro m hm
  rw [hbody, write_bodyFor] at hm ⊢
  by_cases hhead : request.method = .head
  · rw [if_pos hhead] at hm ⊢
    cases hm
    exact ⟨rfl, Or.inr ⟨rfl, request, rfl, hhead⟩⟩
  · rw [if_neg hhead] at hm ⊢
    cases hm
    exact ⟨rfl, Or.inl hlength.symm⟩

theorem counts_file (request : Request) (wall : Nat) (content : Bytes) (length : Nat)
    (mediaType : String) : Counts (some request) (file request wall content length mediaType) := by
  intro m hm
  by_cases hhead : request.method = .head
  · simp only [file, if_pos hhead] at hm ⊢
    cases hm
    exact ⟨rfl, Or.inr ⟨rfl, request, rfl, hhead⟩⟩
  · simp only [file, if_neg hhead, write_file_body] at hm ⊢
    by_cases hshrunk : content.length < length
    · rw [if_pos hshrunk] at hm
      cases hm
    · rw [if_neg hshrunk] at hm
      cases hm
      exact ⟨List.length_take_of_le (Nat.le_of_not_lt hshrunk), Or.inl rfl⟩

theorem Built.counts (h : Built codecs wall request? r) : Counts request? r := by
  cases h with
  | badRequest request why => exact counts_of_bodyFor rfl rfl
  | notFound request => exact counts_of_bodyFor rfl rfl
  | serverError request what => exact counts_of_bodyFor rfl rfl
  | protocolError fault =>
    intro m hm
    cases hm
    exact ⟨rfl, Or.inl rfl⟩
  | html request document compress => exact counts_of_bodyFor rfl rfl
  | file request content length mediaType => exact counts_file request wall content length mediaType

/-! ## The end of the head -/

/-- Only a file brings a media type of its own. -/
theorem Built.not_mem_contentType (h : Built codecs wall request? r)
    (htype : r.kind = .staticFile → '\r' ∉ r.contentType.toList) :
    '\r' ∉ r.contentType.toList := by
  cases h with
  | file => exact htype rfl
  | badRequest | notFound | serverError | protocolError | html => exact MediaType.not_mem_html

/-- An empty line stands at the end of a head and nowhere else. -/
theorem headEnd_prefix_drop_iff (htype : '\r' ∉ r.contentType.toList) (i : Nat) :
    Request.headEnd <+: (Bytes.ofText r.head).drop i ↔
      i + Request.headEnd.length = (Bytes.ofText r.head).length := by
  obtain ⟨last, hfound, hlast⟩ := firstIndex?_head htype []
  rw [List.append_nil, Text.firstIndex?_eq_some_iff] at hfound
  obtain ⟨-, hthere, hfirst⟩ := hfound
  constructor
  · intro hi
    -- The first one is the last thing in the head, so there is no room for another one behind it.
    have hle := hi.length_le
    rw [List.length_drop] at hle
    have hge : last ≤ i := Nat.le_of_not_lt fun hlt => hfirst i hlt hi
    have hend : 0 < Request.headEnd.length := by decide
    omega
  · intro hi
    obtain rfl : i = last := Nat.add_right_cancel (hi.trans hlast.symm)
    exact hthere

/-! ## Writing -/

/-- A file for a request other than `HEAD` is sent up to its announced length or up to its end.  Of
the two only the first is reported as written.  Whatever is made is written as its head, with its
only empty line at the end, and with as many bytes behind it as are reported, which is the announced
number of them unless the request was a `HEAD`. -/
theorem write_reports_what_it_sent (codecs : Codecs) (wall : Nat) :
    (∀ (request : Request) (content : Bytes) (length : Nat) (mediaType : String),
      request.method ≠ .head →
        let r := file request wall content length mediaType
        r.write.1 = Bytes.ofText r.head ++ content.take (min length content.length) ∧
        (length ≤ content.length → r.write.2 = .ok length) ∧
        (content.length < length →
          ∃ cause, r.write.2 = .error (.transport cause) ∧ cause.kind = .unexpectedEof)) ∧
    ∀ (request? : Option Request) (r : Response), Built codecs wall request? r →
      (∃ sent, r.write.1 = Bytes.ofText r.head ++ sent ∧
        ∀ m, r.write.2 = .ok m →
          sent.length = m ∧
            (m = r.contentLength ∨ m = 0 ∧ ∃ request ∈ request?, request.method = .head)) ∧
      ((r.kind = .staticFile → '\r' ∉ r.contentType.toList) →
        Reply.announced? (Bytes.ofText r.head) = some r.contentLength ∧
        ∀ i, Request.headEnd <+: (Bytes.ofText r.head).drop i ↔
          i + Request.headEnd.length = (Bytes.ofText r.head).length) := by
  constructor
  · intro request content length mediaType hmethod r
    have hwrite : r.write = _ := write_file_of_ne_head hmethod content length mediaType
    rw [hwrite, ← List.take_eq_take_min]
    refine ⟨rfl, fun hle => if_neg (Nat.not_lt_of_le hle), fun hlt => ?_⟩
    exact ⟨_, if_pos hlt, rfl⟩
  · intro request? r h
    refine ⟨⟨r.body.write.1, rfl, h.counts⟩, fun htype => ?_⟩
    have hplain := h.not_mem_contentType htype
    exact ⟨announced?_head hplain, headEnd_prefix_drop_iff hplain⟩

end ContentServer.Response
