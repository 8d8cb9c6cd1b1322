import ContentServer.Proofs.Session.Replies

/-!
# The stream of replies

All that a session sends is one stream of bytes.  It holds the answers to the requests that went to
the site, in their order, and behind them the answer to a refused head if the session ended with
one.  `Written` says so of a session at any time, every step keeps it, and so it holds whatever
happens to a session.

Every answer is framed for the method of its request, also if the files change meanwhile and if a
file grows while it is sent.  The answer to a refused head is framed for a client that waits for no
`HEAD`.  A client therefore gets the answers back from the stream (`cut_output`).
-/

namespace ContentServer

/-! ## Refusals -/

/-- A reply that refuses a head.  It closes the connection, and it has its body. -/
structure Reply.IsRefusal (reply : Reply) : Prop where
  status : (linesOf reply.head).head? = some "HTTP/1.1 400 Bad Request".toList ∨
    (linesOf reply.head).head? = some "HTTP/1.1 413 Content Too Large".toList
  close : "Connection: close".toList ∈ linesOf reply.head
  body_ne_nil : reply.body ≠ []
  body : announced? reply.head = some reply.body.length

namespace Response

theorem not_mem_protocolError (fault : Fault) (wall : Nat) :
    '\r' ∉ (protocolError fault wall).contentType.toList := MediaType.not_mem_html

theorem protocolError_framed {method : Option Method} (h : method ≠ some .head) (fault : Fault)
    (wall : Nat) : (protocolError fault wall).Framed method := by
  refine ⟨not_mem_protocolError fault wall, ?_⟩
  rw [if_neg h]
  rfl

theorem protocolError_isRefusal (cause : RequestFault) (wall : Nat) :
    (Reply.ofResponse (protocolError (.request cause) wall)).IsRefusal := by
  have hplain := not_mem_protocolError (.request cause) wall
  constructor
  · have hbad : ("HTTP/1.1" ++ " " ++ toString 400 ++ " " ++ "Bad Request").toList
        = "HTTP/1.1 400 Bad Request".toList := by decide
    have hlarge : ("HTTP/1.1" ++ " " ++ toString 413 ++ " " ++ "Content Too Large").toList
        = "HTTP/1.1 413 Content Too Large".toList := by decide
    rw [Reply.ofResponse, linesOf_head hplain, ← hbad, ← hlarge]
    cases cause with
    | bodyTooLarge => exact Or.inr rfl
    | malformed | unsupportedVersion | headTooLarge => exact Or.inl rfl
  · have hclose : "Connection: close".toList = (field "Connection" "close").line := by decide
    rw [Reply.ofResponse, linesOf_head hplain, hclose]
    refine List.mem_cons_of_mem _ (List.mem_append_left _ (List.mem_map_of_mem ?_))
    simp [fields, protocolError]
  · have hmessage : Bytes.ofText (Fault.request cause).message ≠ [] := by cases cause <;> decide
    exact hmessage
  · exact announced?_head hplain

end Response

namespace Session

variable {site : Site} {limits : Limits} {now : Moment} {s t : Session} {state after : Site.State}
variable {initial : Site.State} {requests : List (Moment × Request)}

/-! ## What a session has written -/

/-- What a session may send behind its last answer: nothing, or the refusal that ended it. -/
inductive Closing (s : Session) : List Response → Prop where
  | nothing : Closing s []
  | refusal {cause : RequestFault} (hphase : s.phase = .ended (.refused cause)) (wall : Nat) :
      Closing s [.protocolError (.request cause) wall]

theorem Closing.eq_nil {closing : List Response} (h : Closing s closing)
    (hopen : s.isEnded = false) : closing = [] := by
  cases h with
  | nothing => rfl
  | refusal hphase wall =>
    rw [isEnded, hphase] at hopen
    cases hopen

/-- A session that has answered some requests, of which the first met the site in its initial
state and its files as they were at first. -/
structure Written (site : Site) (initial : Site.State) (requests : List (Moment × Request))
    (s : Session) (state : Site.State) : Prop where
  state : state = (site.answerFrom 0 requests initial).2
  served : s.served = requests.length
  output : ∃ closing, Closing s closing ∧
    s.output = ((site.answerFrom 0 requests initial).1 ++ closing).flatMap fun r => r.write.1

theorem Written.output_of_open (h : Written site initial requests s state)
    (hopen : s.isEnded = false) :
    s.output = (site.answerFrom 0 requests initial).1.flatMap fun r => r.write.1 := by
  obtain ⟨closing, hclosing, houtput⟩ := h.output
  rw [hclosing.eq_nil hopen, List.append_nil] at houtput
  exact houtput

/-- A session that has sent nothing more has written the same. -/
theorem Written.congr (h : Written site initial requests s state) (hopen : s.isEnded = false)
    (hserved : t.served = s.served) (houtput : t.output = s.output) :
    Written site initial requests t state := by
  refine ⟨h.state, hserved.trans h.served, [], .nothing, ?_⟩
  rw [houtput, h.output_of_open hopen, List.append_nil]

/-- A session that has sent the same, and ended the same way if it has, has written the same. -/
theorem Written.of_same (h : Written site initial requests s state) (hphase : t.phase = s.phase)
    (hserved : t.served = s.served) (houtput : t.output = s.output) :
    Written site initial requests t state := by
  obtain ⟨closing, hclosing, heq⟩ := h.output
  refine ⟨h.state, hserved.trans h.served, closing, ?_, houtput.trans heq⟩
  cases hclosing with
  | nothing => exact .nothing
  | refusal hended wall => exact .refusal (hphase.trans hended) wall

theorem Written.of_no_due (h : Written site initial requests t after) (hdue : s.due? = none)
    (now : Moment) : Written site initial (requests ++ s.due?.toList.map (now, ·)) t after := by
  rw [hdue, Option.toList_none, List.map_nil, List.append_nil]
  exact h

/-- A step writes the answer to the request that is due, or the refusal of a head, or nothing. -/
theorem Written.step (h : Written site initial requests s state)
    (hstep : Step site limits now s state t after) :
    Written site initial (requests ++ s.due?.toList.map (now, ·)) t after := by
  have hopen := hstep.isEnded_eq_false
  cases hstep with
  | @answer request hphase =>
    have hwritten := (site.answerAt_answer s.served now request state).written
    have hdue : s.due? = some request := due?_eq_some_iff.mpr hphase
    have hanswers : site.answerFrom 0 (requests ++ [(now, request)]) initial
        = ((site.answerFrom 0 requests initial).1
              ++ [(site.answerAt s.served now request state).1],
            (site.answerAt s.served now request state).2) := by
      rw [Site.answerFrom_append, Nat.zero_add, ← h.state, ← h.served]
      rfl
    rw [hdue, Option.toList_some, List.map_singleton]
    refine ⟨?_, ?_, [], .nothing, ?_⟩
    · rw [hanswers]
    · rw [served_reply hwritten, h.served, List.length_append, List.length_singleton]
    · rw [output_reply hwritten, h.output_of_open hopen, hanswers, List.append_nil,
        List.flatMap_append, List.flatMap_singleton]
  | @refuse cause hphase hblank hparse =>
    refine .of_no_due ?_ (due?_eq_none_of_head hphase) now
    refine ⟨h.state, h.served, _, .refusal rfl now.wall, ?_⟩
    rw [List.flatMap_append, List.flatMap_singleton, ← h.output_of_open hopen]
    rfl
  -- The other steps send nothing.
  | discard hphase hmissing hbuffer =>
    refine .of_no_due ?_ (due?_eq_none_of_missing hphase hmissing) now
    exact h.congr hopen rfl rfl
  | blank hphase hblank =>
    refine .of_no_due ?_ (due?_eq_none_of_head hphase) now
    exact h.congr hopen rfl rfl
  | accept hphase hblank hparse =>
    refine .of_no_due ?_ (due?_eq_none_of_head hphase) now
    exact h.congr hopen rfl rfl
  | stop hphase hbuffer hstopping =>
    refine .of_no_due ?_ (due?_eq_none_of_head hphase) now
    exact h.congr hopen rfl rfl

/-- What one step keeps is kept while a session settles. -/
theorem Written.settle (h : Written site initial requests s state) :
    Written site initial (requests ++ (answered site limits now s state).map (now, ·))
      (settle site limits now s state).1 (settle site limits now s state).2 := by
  induction s, state using settle_induction site limits now generalizing requests with
  | waits s state hwaits =>
    rw [settle_of_waits hwaits, answered_of_waits hwaits, List.map_nil, List.append_nil]
    exact h
  | step s state t after hstep ih =>
    rw [settle_of_step hstep, answered_of_step hstep, List.map_append, ← List.append_assoc]
    exact ih (h.step hstep)

/-- Taking note of an event sends nothing. -/
theorem silent_receive (now : Time) (event : Event) (s : Session) :
    (s.receive now event).served = s.served ∧ (s.receive now event).output = s.output := by
  have hexpire : (s.expire now).served = s.served ∧ (s.expire now).output = s.output := by
    rw [expire]
    split <;> exact ⟨rfl, rfl⟩
  have hhangUp : ∀ t : Session, t.hangUp.served = t.served ∧ t.hangUp.output = t.output := by
    intro t
    rw [hangUp]
    split
    · exact ⟨rfl, rfl⟩
    · exact ⟨rfl, rfl⟩
    · split <;> exact ⟨rfl, rfl⟩
  unfold receive
  dsimp only
  split
  · exact hexpire
  · cases event with
    | bytes data => exact hexpire
    | endOfInput => exact ⟨(hhangUp _).1.trans hexpire.1, (hhangUp _).2.trans hexpire.2⟩
    | stop => exact hexpire
    | tick => exact hexpire

theorem Written.receive (h : Written site initial requests s state) (now : Time) (event : Event) :
    Written site initial requests (s.receive now event) state := by
  cases hended : s.isEnded with
  | true =>
    rw [receive_of_isEnded hended]
    exact h
  | false =>
    obtain ⟨hserved, houtput⟩ := silent_receive now event s
    exact h.congr hended hserved houtput

theorem Written.handleAll (h : Written site initial requests s state)
    (events : List (Moment × Event)) :
    Written site initial (requests ++ answeredAll site limits events s state)
      (handleAll site limits events s state).1 (handleAll site limits events s state).2 := by
  induction events generalizing requests s state with
  | nil =>
    rw [answeredAll, List.append_nil]
    exact h
  | cons first events ih =>
    obtain ⟨now, event⟩ := first
    rw [answeredAll, ← List.append_assoc]
    exact ih (h.receive now.clock event).settle

theorem Written.resume (h : Written site initial requests s state) (now : Moment)
    (later : List (Moment × Event)) :
    let r := resume site limits now later s state
    Written site initial (requests ++ r.answered) r.session r.state := by
  have hsettled : Written site initial _ (Session.settle site limits now s state).1 _ := h.settle
  have hlater : Written site initial _ (Session.handleAll site limits later _ _).1 _ :=
    hsettled.handleAll later
  rw [List.append_assoc] at hlater
  exact hlater.of_same (phase_forget _) (served_forget _) (output_forget _)

theorem written_start (site : Site) (limits : Limits) (begin : Time) (state : Site.State) :
    Written site state [] (start limits begin) state :=
  ⟨rfl, served_start limits begin, [], .nothing, output_start limits begin⟩

/-! ## What a client makes of it -/

theorem Closing.cut {closing : List Response} (h : Closing s closing) {methods : List Method}
    (hmethods : closing ≠ [] → methods.head? ≠ some .head) :
    Reply.cut methods (closing.flatMap fun r => r.write.1) = some (closing.map .ofResponse) := by
  cases h with
  | nothing => exact Reply.cut_nil methods
  | @refusal cause hphase wall =>
    have hmethod : methods.head? ≠ some .head := hmethods (List.cons_ne_nil _ _)
    have hframed := Response.protocolError_framed hmethod (.request cause) wall
    rw [List.flatMap_cons, List.flatMap_nil, Reply.cut_of_take? (Reply.take?_framed hframed []),
      Reply.cut_nil]
    rfl

/-- Whatever happens to a session, a client that knows the methods of its requests gets from the
output the answers to the requests that were answered, in order, and behind them at most a refusal.
Nothing of the output is left over.  The client need not know how many of its requests were
answered: `unanswered` are the methods of others.  Only if the refused head was that of a `HEAD` it
must not count it, because a refusal has its body all the same.

The files may be others at every answer, and a file that is sent may have been replaced or have
grown since its length was announced. -/
theorem cut_output (site : Site) (limits : Limits) (begin : Time) (events : List (Moment × Event))
    (state : Site.State) :
    let s := (handleAll site limits events (start limits begin) state).1
    let requests := answeredAll site limits events (start limits begin) state
    let answers := (site.answerFrom 0 requests state).1.map Reply.ofResponse
    ∃ closing : List Reply, answers.length = s.served ∧ closing.length ≤ 1 ∧
      (∀ reply ∈ closing, reply.IsRefusal) ∧
      s.output = (answers ++ closing).flatMap (fun reply => reply.head ++ reply.body) ∧
      ∀ unanswered : List Method, (closing ≠ [] → unanswered.head? ≠ some .head) →
        Reply.cut (requests.map (fun r => r.2.method) ++ unanswered) s.output
          = some (answers ++ closing) := by
  intro s requests answers
  have h : Written site state requests s _ :=
    (written_start site limits begin state).handleAll events
  obtain ⟨closing, hclosing, houtput⟩ := h.output
  have hcut : ∀ unanswered : List Method,
      (closing.map Reply.ofResponse ≠ [] → unanswered.head? ≠ some .head) →
      Reply.cut (requests.map (fun r => r.2.method) ++ unanswered) s.output
        = some (answers ++ closing.map .ofResponse) := by
    intro unanswered hmethods
    have hrest := hclosing.cut fun hne => hmethods (by simpa using hne)
    rw [houtput, List.flatMap_append, Reply.cut_framed (site.answerFrom_framed 0 requests state),
      hrest]
    rfl
  refine ⟨closing.map .ofResponse, ?_, ?_, ?_, ?_, hcut⟩
  · rw [List.length_map, Site.length_answerFrom]
    exact h.served.symm
  · cases hclosing with
    | nothing => exact Nat.zero_le 1
    | refusal hphase wall => exact Nat.le_refl 1
  · cases hclosing with
    | nothing => simp
    | @refusal cause hphase wall =>
      intro reply hreply
      rw [List.mem_singleton.mp hreply]
      exact Response.protocolError_isRefusal cause wall
  · exact Reply.stream_of_cut (hcut [] fun _ => by simp)

end Session

end ContentServer
