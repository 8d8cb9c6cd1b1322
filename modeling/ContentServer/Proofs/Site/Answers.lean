import ContentServer.Proofs.Http.Writing
import ContentServer.Site

/-!
# Answers of a site

Whatever a site answers to a request is one of five things, and `Answer` lists them.  What holds of
every answer is proved of the five.

* The connection stays open if the request asks for that.
* The answer is written to its end, because a file has at least the length that is announced.
* The answer is framed for the method of its request, so a client can read it off the wire.

In the course of a session the files may change, and a file may grow before it is sent.  A file that
grows is still one of the five (`Answer.grown`), so all of this holds of what a session answers.
-/

namespace ContentServer.Site

variable {site : Site} {now : Moment} {request : Request} {response : Response}

/-! ## Five kinds of answers -/

/-- What a site may answer to a request. -/
inductive Answer (site : Site) (now : Moment) (request : Request) : Response → Prop where
  | badRequest (why : String) : Answer site now request (.badRequest request now.wall why)
  | notFound : Answer site now request (.notFound request now.wall)
  | serverError (what : String) : Answer site now request (.serverError request now.wall what)
  | rendered (document : String) : Answer site now request (site.rendered now request document)
  | file (content : Bytes) {length : Nat} (h : length ≤ content.length) (path : String) :
      Answer site now request (.file request now.wall content length (MediaType.ofPath path))

theorem serveFile_answer (site : Site) (now : Moment) (request : Request) (path : String) :
    Answer site now request (site.serveFile now request path) := by
  rw [serveFile]
  split
  · exact .file _ (Nat.le_refl _) _
  · exact .notFound
  · exact .notFound
  · exact .serverError _

theorem fetch_answer (site : Site) (now : Moment) (request : Request) (tenant : String)
    (resource : Resource) (s : State) :
    Answer site now request (site.fetch now request tenant resource s).1 := by
  rw [fetch]
  dsimp only
  split
  · exact .serverError _
  · exact .notFound
  · split
    · exact .notFound
    · exact .rendered _

theorem render_answer (site : Site) (now : Moment) (request : Request) (tenant : String)
    (resource : Resource) (s : State) :
    Answer site now request (site.render now request tenant resource s).1 := by
  rw [render]
  split
  · dsimp only
    split
    · exact .rendered _
    · exact fetch_answer site now request tenant resource _
  · exact fetch_answer site now request tenant resource s

/-- A site answers one of the five. -/
theorem answer_answer (site : Site) (now : Moment) (request : Request) (s : State) :
    Answer site now request (site.answer now request s).1 := by
  rw [answer]
  split
  · exact .badRequest _
  · exact .notFound
  · exact serveFile_answer site now request _
  · exact render_answer site now request _ _ s

/-! ## What holds of all of them -/

/-- The connection stays open if the request asks for that. -/
theorem Answer.keepAlive (h : Answer site now request response) :
    response.keepAlive = request.keepAlive := by
  cases h with
  | badRequest why => rfl
  | notFound => rfl
  | serverError what => rfl
  | rendered document => rfl
  | file content h path => rfl

/-- An answer is made for its request. -/
theorem Answer.built (h : Answer site now request response) :
    Response.Built site.codecs now.wall (some request) response := by
  cases h with
  | badRequest why => exact .badRequest request why
  | notFound => exact .notFound request
  | serverError what => exact .serverError request what
  | rendered document => exact .html request document site.rules.compress
  | @file content length h path => exact .file request content length (MediaType.ofPath path)

theorem snd_write (response : Response) : response.write.2 = response.body.write.2 := rfl

theorem written_bodyFor (request : Request) (content : Bytes) :
    ∃ n, (Response.bodyFor request content).write.2 = .ok n := by
  rw [Response.write_bodyFor]
  split
  · exact ⟨_, rfl⟩
  · exact ⟨_, rfl⟩

theorem written_file {content : Bytes} {length : Nat} (h : length ≤ content.length) :
    (Response.Body.file content length).write.2 = .ok length := by
  rw [Response.write_file_body, if_neg (Nat.not_lt_of_le h)]

/-- An answer is written to its end. -/
theorem Answer.written (h : Answer site now request response) : ∃ n, response.write.2 = .ok n := by
  rw [snd_write]
  cases h with
  | badRequest why => exact written_bodyFor request _
  | notFound => exact written_bodyFor request _
  | serverError what => exact written_bodyFor request _
  | rendered document => exact written_bodyFor request _
  | file content h path =>
    rw [Response.file]
    split
    · exact ⟨_, rfl⟩
    · exact ⟨_, written_file h⟩

theorem length_bodyFor (request : Request) (content : Bytes) :
    (Response.bodyFor request content).write.1.length
      = if some request.method = some .head then 0 else content.length := by
  simp only [Response.write_bodyFor, Option.some.injEq]
  split <;> rfl

/-- An answer is framed for the method of its request. -/
theorem Answer.framed (h : Answer site now request response) :
    response.Framed (some request.method) := by
  cases h with
  | badRequest why => exact ⟨MediaType.not_mem_html, length_bodyFor request _⟩
  | notFound => exact ⟨MediaType.not_mem_html, length_bodyFor request _⟩
  | serverError what => exact ⟨MediaType.not_mem_html, length_bodyFor request _⟩
  | rendered document => exact ⟨MediaType.not_mem_html, length_bodyFor request _⟩
  | file content h path =>
    refine ⟨MediaType.not_mem_ofPath path, ?_⟩
    simp only [Response.file, Option.some.injEq]
    split
    · rfl
    · exact List.length_take_of_le h

/-- An answer is written as its head with as many bytes behind it as it announces, or with none for
`HEAD`. -/
theorem Answer.write_eq (h : Answer site now request response) :
    ∃ body, response.write = (Bytes.ofText response.head ++ body, .ok body.length) ∧
      body.length = if request.method = .head then 0 else response.contentLength := by
  obtain ⟨n, hn⟩ := h.written
  obtain ⟨hcount, -⟩ := h.built.counts n hn
  have hlength := h.framed.body
  simp only [Option.some.injEq] at hlength
  refine ⟨response.body.write.1, Prod.ext rfl ?_, hlength⟩
  rw [hcount]
  exact hn

/-! ## Rows of requests -/

theorem answerAll_cons (site : Site) (now : Moment) (request : Request)
    (requests : List (Moment × Request)) (s : State) :
    site.answerAll ((now, request) :: requests) s
      = ((site.answer now request s).1 :: (site.answerAll requests (site.answer now request s).2).1,
          (site.answerAll requests (site.answer now request s).2).2) := rfl

/-! ## In the course of a session -/

/-- A body that is held as bytes is sent as it was made. -/
theorem grown_of_bodyFor {content : Bytes} (h : response.body = Response.bodyFor request content)
    (growth : Growth) : response.grown growth = response := by
  have hbody : response.body.grown growth = response.body := by
    rw [h, Response.bodyFor]
    split <;> rfl
  rw [Response.grown, hbody]

theorem grown_file (growth : Growth) (request : Request) (wall : Nat) (content : Bytes)
    (length : Nat) (mediaType : String) :
    (Response.file request wall content length mediaType).grown growth
      = .file request wall (growth.sent content) length mediaType := by
  rw [Response.grown, Response.file, Response.file]
  split <;> rfl

/-- A file that grows can still be sent as it was announced. -/
theorem Answer.grown (h : Answer site now request response) (growth : Growth) :
    Answer site now request (response.grown growth) := by
  cases h with
  | badRequest why =>
    rw [grown_of_bodyFor rfl]
    exact .badRequest why
  | notFound =>
    rw [grown_of_bodyFor rfl]
    exact .notFound
  | serverError what =>
    rw [grown_of_bodyFor rfl]
    exact .serverError what
  | rendered document =>
    rw [grown_of_bodyFor rfl]
    exact .rendered document
  | file content h path =>
    rw [grown_file]
    exact .file _ (h.trans (growth.length_le content)) path

/-- The answers of a session are of the five kinds. -/
theorem answerAt_answer (site : Site) (n : Nat) (now : Moment) (request : Request) (s : State) :
    Answer (site.found n) now request (site.answerAt n now request s).1 :=
  ((site.found n).answer_answer now request s).grown (site.course.growth n)

theorem answerFrom_cons (site : Site) (n : Nat) (now : Moment) (request : Request)
    (requests : List (Moment × Request)) (s : State) :
    site.answerFrom n ((now, request) :: requests) s
      = ((site.answerAt n now request s).1
            :: (site.answerFrom (n + 1) requests (site.answerAt n now request s).2).1,
          (site.answerFrom (n + 1) requests (site.answerAt n now request s).2).2) := rfl

theorem answerFrom_append (site : Site) (n : Nat) (requests more : List (Moment × Request))
    (s : State) :
    site.answerFrom n (requests ++ more) s
      = ((site.answerFrom n requests s).1
            ++ (site.answerFrom (n + requests.length) more (site.answerFrom n requests s).2).1,
          (site.answerFrom (n + requests.length) more (site.answerFrom n requests s).2).2) := by
  induction requests generalizing n s with
  | nil => rfl
  | cons first requests ih =>
    obtain ⟨now, request⟩ := first
    have hplace : n + ((now, request) :: requests).length = n + 1 + requests.length := by
      rw [List.length_cons]
      omega
    rw [List.cons_append, answerFrom_cons, answerFrom_cons, ih, hplace]
    rfl

theorem answerFrom_framed (site : Site) (n : Nat) (requests : List (Moment × Request))
    (s : State) :
    List.Forall₂ (fun method (response : Response) => response.Framed (some method))
      (requests.map fun r => r.2.method) (site.answerFrom n requests s).1 := by
  induction requests generalizing n s with
  | nil => exact .nil
  | cons first requests ih =>
    obtain ⟨now, request⟩ := first
    exact .cons (site.answerAt_answer n now request s).framed (ih _ _)

theorem length_answerFrom (site : Site) (n : Nat) (requests : List (Moment × Request))
    (s : State) : (site.answerFrom n requests s).1.length = requests.length := by
  induction requests generalizing n s with
  | nil => rfl
  | cons first requests ih => exact congrArg (· + 1) (ih _ _)

/-- If nothing becomes of the files, a session gives the answers of the site as it is at first. -/
theorem answerFrom_of_course {site : Site} (h : site.course = {}) (n : Nat)
    (requests : List (Moment × Request)) (s : State) :
    site.answerFrom n requests s = site.answerAll requests s := by
  have hanswer : ∀ n now request s, site.answerAt n now request s = site.answer now request s := by
    intro n now request s
    rw [answerAt, found, h]
    exact Prod.ext (Response.grown_none (site.answer now request s).1) rfl
  induction requests generalizing n s with
  | nil => rfl
  | cons first requests ih => simp only [answerFrom, answerAll, hanswer, ih]

end ContentServer.Site
