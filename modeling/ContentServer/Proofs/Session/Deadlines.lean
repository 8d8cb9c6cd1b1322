import ContentServer.Proofs.Session.Begun
import ContentServer.Proofs.Session.Remainders

/-!
# The deadline of a request

A session has a certain time for each request.  The time begins when the session starts, or when it
has written the answer before, and it covers the head and the body together.  All that arrives
within it counts, and nothing else does.

`Request.prospect` says what some bytes make a session do: to answer a request, to refuse a head, or
nothing.  No step changes what a session has in prospect if the bytes that are still to come are
counted in (`Reading.step`).  These are the bytes that arrive in time, whatever reads they come in.
So when a request begins, its `Outcome` is settled by all that arrives before its time is over
(`Begins.outcome`).
-/

namespace ContentServer

/-- What a session does about the request that it reads. -/
inductive Prospect where
  /-- The request goes to the site. -/
  | answer (request : Request)
  /-- The head is refused. -/
  | refusal (cause : RequestFault)
  /-- Some of the request is missing. -/
  | nothing
deriving DecidableEq, Repr

namespace Request

variable {maxBody : Nat} {buffer : Bytes}

/-! ## What bytes have in prospect -/

/-- What a session does about the first request in some bytes, if no more come. -/
def prospect (maxBody : Nat) (bytes : Bytes) : Prospect :=
  let front := bytes.drop (blankLength bytes)
  match parse maxBody front with
  | .error cause => .refusal cause
  | .ok none => .nothing
  | .ok (some (request, n)) =>
    if n + request.contentLength ≤ front.length then .answer request else .nothing

/-- Line breaks may be dropped as soon as they are there. -/
theorem drop_blankLength_append (buffer more : Bytes) :
    (buffer ++ more).drop (blankLength (buffer ++ more))
      = (buffer.drop (blankLength buffer) ++ more).drop
          (blankLength (buffer.drop (blankLength buffer) ++ more)) := by
  rcases Nat.lt_or_eq_of_le (blankLength_le buffer) with hlt | heq
  · have hfront : blankLength (buffer.drop (blankLength buffer))
        < (buffer.drop (blankLength buffer)).length := by
      rw [blankLength_drop, List.length_drop]
      exact Nat.sub_pos_of_lt hlt
    rw [blankLength_append_of_lt hlt, blankLength_append_of_lt hfront, blankLength_drop,
      List.drop_append_of_le_length (blankLength_le buffer), List.drop_zero]
  · rw [blankLength_append_of_eq heq, heq, List.drop_length, List.nil_append,
      List.drop_length_add_append]

theorem prospect_drop_blank (maxBody : Nat) (buffer more : Bytes) :
    prospect maxBody (buffer.drop (blankLength buffer) ++ more)
      = prospect maxBody (buffer ++ more) := by
  simp only [prospect, drop_blankLength_append buffer more]

/-- A head that is refused is refused whatever follows it. -/
theorem prospect_of_refused {cause : RequestFault} (hblank : blankLength buffer = 0)
    (hparse : parse maxBody buffer = .error cause) (more : Bytes) :
    prospect maxBody (buffer ++ more) = .refusal cause := by
  have hsay : parse maxBody buffer ≠ .ok none := by
    rw [hparse]
    rintro ⟨⟩
  rw [prospect, blankLength_append_of_parse hblank hsay, List.drop_zero, parse_append hblank hsay,
    hparse]

/-- Behind a head that is accepted, only the length of the body counts. -/
theorem prospect_of_accepted {request : Request} {n : Nat} (hblank : blankLength buffer = 0)
    (hparse : parse maxBody buffer = .ok (some (request, n))) (more : Bytes) :
    prospect maxBody (buffer ++ more)
      = if request.contentLength ≤ (buffer.drop n ++ more).length then .answer request
        else .nothing := by
  have hsay : parse maxBody buffer ≠ .ok none := by
    rw [hparse]
    rintro ⟨⟩
  have hn : n ≤ buffer.length := (parse_consumed hparse).2
  have hlength : n + request.contentLength ≤ (buffer ++ more).length ↔
      request.contentLength ≤ (buffer.drop n ++ more).length := by
    rw [List.length_append, List.length_append, List.length_drop]
    omega
  rw [prospect, blankLength_append_of_parse hblank hsay, List.drop_zero, parse_append hblank hsay,
    hparse]
  simp only [hlength]

theorem prospect_of_waiting (hblank : blankLength buffer = 0)
    (hparse : parse maxBody buffer = .ok none) : prospect maxBody buffer = .nothing := by
  rw [prospect, hblank, List.drop_zero, hparse]

end Request

namespace Session

/-! ## Messages in prospect -/

section Messages

variable {maxBody : Nat}

theorem Message.drop_blank (m : Message maxBody) (more : Bytes) :
    (m.bytes ++ more).drop (Request.blankLength (m.bytes ++ more))
      = m.core ++ (m.body ++ more) := by
  rw [m.blankLength_bytes, m.bytes_eq, List.append_assoc, List.append_assoc, List.drop_left]

end Messages

variable {site : Site} {limits : Limits} {now : Moment} {s t : Session} {state after : Site.State}
variable {events : List (Moment × Event)}

/-! ## What a session has in prospect -/

/-- What a session does about the request that it reads, if some bytes are still to come. -/
def prospect (limits : Limits) (s : Session) (coming : Bytes) : Prospect :=
  match s.phase with
  | .ended _ => .nothing
  | .body request missing =>
    if missing ≤ (s.buffer ++ coming).length then .answer request else .nothing
  | .head => Request.prospect limits.maxBody (s.buffer ++ coming)

theorem prospect_head (hphase : s.phase = .head) (coming : Bytes) :
    s.prospect limits coming = Request.prospect limits.maxBody (s.buffer ++ coming) := by
  rw [prospect, hphase]

theorem prospect_body {request : Request} {missing : Nat} (hphase : s.phase = .body request missing)
    (coming : Bytes) :
    s.prospect limits coming
      = if missing ≤ (s.buffer ++ coming).length then .answer request else .nothing := by
  rw [prospect, hphase]

theorem prospect_append (data coming : Bytes) :
    (s.append data).prospect limits coming = s.prospect limits (data ++ coming) := by
  simp only [prospect, append, List.append_assoc]

/-- A session that waits has nothing in prospect unless more comes. -/
theorem Waits.prospect_nil (h : s.Waits limits) : s.prospect limits [] = .nothing := by
  cases hphase : s.phase with
  | ended how => rw [prospect, hphase]
  | body request missing =>
    rw [Waits, hphase] at h
    obtain ⟨hmissing, hbuffer⟩ := h
    rw [prospect_body hphase, hbuffer]
    exact if_neg (Nat.not_le_of_lt hmissing)
  | head =>
    rw [Waits, hphase] at h
    obtain ⟨hblank, hparse, -⟩ := h
    rw [prospect_head hphase, List.append_nil]
    exact Request.prospect_of_waiting hblank hparse

/-! ## Reading on -/

/-- A session that has only read on since it was another one. -/
structure Reading (origin s : Session) : Prop where
  isOpen : s.isEnded = false
  deadline : s.deadline = origin.deadline
  output : s.output = origin.output
  served : s.served = origin.served

variable {origin : Session}

/-- A step that answers nothing leaves the same in prospect, or it refuses the head that is in
prospect, or the session stops. -/
theorem Reading.step (h : Reading origin s) (hstep : Step site limits now s state t after)
    (hdue : s.due? = none) (coming : Bytes) :
    after = state ∧
      (Reading origin t ∧ t.stopping = s.stopping ∧
          t.prospect limits coming = s.prospect limits coming ∨
        (∃ cause, s.prospect limits coming = .refusal cause ∧ t = s.refuse now cause) ∨
        s.stopping = true ∧ t = s.finish .complete) := by
  cases hstep with
  | answer hphase =>
    rw [due?, hphase] at hdue
    cases hdue
  | @discard request missing hphase hmissing hbuffer =>
    refine ⟨rfl, Or.inl ⟨⟨rfl, h.deadline, h.output, h.served⟩, rfl, ?_⟩⟩
    have hfit : missing - s.buffer.length ≤ (s.buffer.drop missing ++ coming).length ↔
        missing ≤ (s.buffer ++ coming).length := by
      rw [List.length_append, List.length_append, List.length_drop]
      omega
    rw [prospect_body hphase, prospect_body rfl]
    simp only [hfit]
  | blank hphase hblank =>
    refine ⟨rfl, Or.inl ⟨⟨h.isOpen, h.deadline, h.output, h.served⟩, rfl, ?_⟩⟩
    have hdropped : (s.reading (s.buffer.drop (Request.blankLength s.buffer))).phase = .head :=
      hphase
    rw [prospect_head hphase]
    exact (prospect_head hdropped coming).trans (Request.prospect_drop_blank _ _ _)
  | @refuse cause hphase hblank hparse =>
    refine ⟨rfl, Or.inr (Or.inl ⟨cause, ?_, rfl⟩)⟩
    rw [prospect_head hphase]
    exact Request.prospect_of_refused hblank hparse coming
  | @accept request n hphase hblank hparse =>
    refine ⟨rfl, Or.inl ⟨⟨rfl, h.deadline, h.output, h.served⟩, rfl, ?_⟩⟩
    rw [prospect_head hphase, prospect_body rfl]
    exact (Request.prospect_of_accepted hblank hparse coming).symm
  | stop hphase hbuffer hstopping => exact ⟨rfl, Or.inr (Or.inr ⟨hstopping, rfl⟩)⟩

/-! ## Sessions that begin to read a request -/

/-- Whether a session begins to read a request at some moment.  It has just started, or it has just
answered the request before. -/
structure Begins (site : Site) (limits : Limits) (now : Moment) (s : Session) (state : Site.State) :
    Prop where
  origin : s = start limits now.clock ∨
    ∃ t before, t.due? ≠ none ∧ Step site limits now t before s state
  isOpen : s.isEnded = false

theorem await_of_open {now : Time} (hopen : (s.await limits now).isEnded = false) :
    (s.await limits now).phase = .head ∧
      (s.await limits now).deadline = now + limits.readTimeout := by
  rw [await, Clock.later?] at hopen ⊢
  split at hopen
  · cases hopen
  · next deadline hlater =>
    split at hlater
    · cases hlater
      exact ⟨rfl, rfl⟩
    · cases hlater

theorem Begins.await (h : s.Begins site limits now state) :
    s.phase = .head ∧ s.deadline = now.clock + limits.readTimeout := by
  have hopen := h.isOpen
  rcases h.origin with rfl | ⟨t, before, hdue, hstep⟩
  · exact await_of_open hopen
  · cases hstep with
    | @answer request hphase =>
      rw [reply_of_written (site.answerAt_answer t.served now request before).written] at hopen ⊢
      split at hopen
      · next hkeep =>
        rw [if_pos hkeep]
        exact await_of_open hopen
      · cases hopen
    | discard hphase hmissing => exact absurd (due?_eq_none_of_missing hphase hmissing) hdue
    | blank hphase => exact absurd (due?_eq_none_of_head hphase) hdue
    | refuse hphase => exact absurd (due?_eq_none_of_head hphase) hdue
    | accept hphase => exact absurd (due?_eq_none_of_head hphase) hdue
    | stop hphase => exact absurd (due?_eq_none_of_head hphase) hdue

/-! ## What becomes of a request -/

/-- The bytes that arrive in some events until a deadline is over or the input ends. -/
def receivedBy (deadline : Time) (events : List (Moment × Event)) : Bytes :=
  received (events.takeWhile fun (now, event) => now.clock ≤ deadline && event != .endOfInput)

theorem receivedBy_cons_of_late {deadline : Time} (hlate : deadline < now.clock) (event : Event)
    (events : List (Moment × Event)) : receivedBy deadline ((now, event) :: events) = [] := by
  have hnot : ¬ now.clock ≤ deadline := Nat.not_le_of_lt hlate
  rw [receivedBy, List.takeWhile_cons_of_neg (by simp [hnot])]
  rfl

theorem receivedBy_endOfInput (deadline : Time) (now : Moment) (events : List (Moment × Event)) :
    receivedBy deadline ((now, .endOfInput) :: events) = [] := by
  rw [receivedBy, List.takeWhile_cons_of_neg (by simp)]
  rfl

theorem receivedBy_cons {deadline : Time} (hin : now.clock ≤ deadline) {event : Event}
    (hevent : event ≠ .endOfInput) (events : List (Moment × Event)) :
    receivedBy deadline ((now, event) :: events)
      = received [(now, event)] ++ receivedBy deadline events := by
  rw [receivedBy, List.takeWhile_cons_of_pos (by simp [hin, hevent]), received_cons, receivedBy]

/-- What becomes of the request that a session reads from its origin on, given what there is in
prospect when its time is over. -/
inductive Outcome (site : Site) (limits : Limits) (events : List (Moment × Event))
    (origin : Session) (state : Site.State) (r : Report) : Prospect → Prop where
  /-- It is answered before any other, and the session reads the next one or has ended. -/
  | answered {request : Request} {answer : Moment} {later : List (Moment × Event)} {t : Session}
      {after : Site.State}
      (h : r = (resume site limits answer later t after).prepend [(answer, request)])
      (hin : answer.clock ≤ origin.deadline) (hlater : later <:+ events)
      (hnext : t.isEnded = true ∨ t.Begins site limits answer after) :
      Outcome site limits events origin state r (.answer request)
  /-- Its head is refused, and nothing else is sent. -/
  | refused {cause : RequestFault} {answer : Moment}
      (h : r.Closes (refusal cause answer).write.1 origin state)
      (hin : answer.clock ≤ origin.deadline) (hphase : r.session.phase = .ended (.refused cause)) :
      Outcome site limits events origin state r (.refusal cause)
  /-- Nothing is sent, and the session ends when it is late. -/
  | silent (h : r.Closes [] origin state)
      (hlate : (∃ event ∈ events, origin.deadline < event.1.clock) → r.session.isEnded = true) :
      Outcome site limits events origin state r .nothing
  /-- The session has been asked to stop, and stops before any of the request is there. -/
  | stopped {p : Prospect} (hasked : origin.stopping = true ∨ ∃ t, (t, .stop) ∈ events)
      (h : r.Closes [] origin state) (hphase : r.session.phase = .ended .complete) :
      Outcome site limits events origin state r p

variable {all : List (Moment × Event)}

theorem Reading.closes_finish (h : Reading origin s) (how : Ending)
    (events : List (Moment × Event)) (state : Site.State) :
    (report site limits events (s.finish how) state).Closes [] origin state := by
  have hended : (s.finish how).isEnded = true := rfl
  exact closes_of_isEnded hended (h.output.trans (List.append_nil _).symm) h.served events

theorem Reading.closes_refuse (h : Reading origin s) (now : Moment) (cause : RequestFault)
    (events : List (Moment × Event)) (state : Site.State) :
    (report site limits events (s.refuse now cause) state).Closes (refusal cause now).write.1
      origin state := by
  have hended : (s.refuse now cause).isEnded = true := rfl
  exact closes_of_isEnded hended (congrArg (· ++ (refusal cause now).write.1) h.output) h.served
    events

/-- What becomes of the request, if that is known of the session once it waits. -/
theorem Reading.outcome_resume_of (h : Reading origin s) (hin : now.clock ≤ origin.deadline)
    (hasked : s.stopping = true → origin.stopping = true ∨ ∃ t, (t, .stop) ∈ all)
    (hevents : events <:+ all) {coming : Bytes}
    (hreport : ∀ t, Reading origin t → t.stopping = s.stopping → t.Waits limits →
      Outcome site limits all origin state (report site limits events t state)
        (t.prospect limits coming)) :
    Outcome site limits all origin state (resume site limits now events s state)
      (s.prospect limits coming) := by
  induction s, state using settle_induction site limits now with
  | waits s state hwaits =>
    rw [resume_of_waits hwaits]
    exact hreport s h rfl hwaits
  | step s state t after hstep ih =>
    cases hdue : s.due? with
    | some request =>
      have hphase := due?_eq_some_iff.mp hdue
      rw [prospect_body hphase, if_pos (Nat.zero_le _)]
      refine .answered (resume_answer hphase events) hin hevents ?_
      have hsome : s.due? ≠ none := hdue ▸ Option.some_ne_none request
      refine (Bool.eq_false_or_eq_true _).imp_right fun hopen => ?_
      exact ⟨Or.inr ⟨s, state, hsome, .answer hphase⟩, hopen⟩
    | none =>
      obtain ⟨rfl, hcases⟩ := h.step hstep hdue coming
      rw [resume_of_step hstep hdue]
      rcases hcases with ⟨ht, hstopping, hsame⟩ | ⟨cause, hrefused, rfl⟩ | ⟨hstopping, rfl⟩
      · rw [← hsame]
        refine ih ht (fun hasks => hasked (hstopping ▸ hasks)) fun u hu hstop hwaits => ?_
        exact hreport u hu (hstop.trans hstopping) hwaits
      · have hended : (s.refuse now cause).isEnded = true := rfl
        rw [hrefused, resume_of_waits (waits_of_isEnded hended)]
        exact .refused (h.closes_refuse now cause events after) hin
          (phase_report_of_isEnded hended events after)
      · have hended : (s.finish .complete).isEnded = true := rfl
        rw [resume_of_waits (waits_of_isEnded hended)]
        exact .stopped (hasked hstopping) (h.closes_finish .complete events after)
          (phase_report_of_isEnded hended events after)

/-- A session that ends while it waits sends nothing for the request that it reads. -/
theorem Reading.outcome_finish (h : Reading origin s) (how : Ending) (now : Moment)
    (events : List (Moment × Event)) (state : Site.State) :
    Outcome site limits all origin state (resume site limits now events (s.finish how) state)
      .nothing := by
  have hended : (s.finish how).isEnded = true := rfl
  rw [resume_of_waits (waits_of_isEnded hended)]
  refine .silent (h.closes_finish how events state) fun _ => ?_
  rw [isEnded, phase_report_of_isEnded hended]
  rfl

/-- What becomes of the request that a waiting session reads. -/
theorem Reading.outcome_report (h : Reading origin s) (hwaits : s.Waits limits)
    (hasked : s.stopping = true → origin.stopping = true ∨ ∃ t, (t, .stop) ∈ all)
    (hevents : events <:+ all)
    (hlate : (∃ event ∈ all, origin.deadline < event.1.clock) →
      ∃ event ∈ events, origin.deadline < event.1.clock) (site : Site) (state : Site.State) :
    Outcome site limits all origin state (report site limits events s state)
      (s.prospect limits (receivedBy origin.deadline events)) := by
  induction events generalizing s with
  | nil =>
    rw [show receivedBy origin.deadline [] = [] from rfl, hwaits.prospect_nil]
    refine .silent ⟨rfl, ?_, ?_, rfl⟩ fun hl => ?_
    · exact (output_forget s).trans (h.output.trans (List.append_nil _).symm)
    · exact (served_forget s).trans h.served
    · obtain ⟨_, hmem, -⟩ := hlate hl
      cases hmem
  | cons first events ih =>
    obtain ⟨now, event⟩ := first
    rw [report_cons]
    rcases Nat.lt_or_ge origin.deadline now.clock with hover | hin
    · rw [receivedBy_cons_of_late hover, hwaits.prospect_nil,
        receive_of_late h.isOpen (h.deadline ▸ hover)]
      exact h.outcome_finish _ now events state
    have hrest : events <:+ all := (List.suffix_cons _ events).trans hevents
    have hlate' : (∃ event ∈ all, origin.deadline < event.1.clock) →
        ∃ event ∈ events, origin.deadline < event.1.clock := by
      intro hl
      obtain ⟨other, hmem, hafter⟩ := hlate hl
      rcases List.mem_cons.mp hmem with rfl | hmem
      · exact absurd hafter (Nat.not_lt_of_le hin)
      · exact ⟨other, hmem, hafter⟩
    rw [receive_of_inTime h.isOpen fun _ => h.deadline ▸ hin]
    cases event with
    | bytes data =>
      have hmore : Reading origin (s.append data) := ⟨h.isOpen, h.deadline, h.output, h.served⟩
      rw [receivedBy_cons hin (by rintro ⟨⟩),
        show received [(now, .bytes data)] = data from List.append_nil data, ← prospect_append]
      refine hmore.outcome_resume_of hin hasked hrest fun t ht hstopping hw => ?_
      exact ih ht hw (fun hs => hasked (hstopping ▸ hs)) hrest hlate'
    | endOfInput =>
      rw [receivedBy_endOfInput, hwaits.prospect_nil]
      dsimp only
      rcases hangUp_of_open h.isOpen with hend | hend <;> rw [hend]
      · exact h.outcome_finish .complete now events state
      · exact h.outcome_finish (.failed .peerClosed) now events state
    | stop =>
      have hs : Reading origin { s with stopping := true } :=
        ⟨h.isOpen, h.deadline, h.output, h.served⟩
      have hnow : ∃ t, (t, .stop) ∈ all := ⟨now, hevents.subset List.mem_cons_self⟩
      rw [receivedBy_cons hin (by rintro ⟨⟩)]
      refine hs.outcome_resume_of hin (fun _ => Or.inr hnow) hrest fun t ht _ hw => ?_
      exact ih ht hw (fun _ => Or.inr hnow) hrest hlate'
    | tick =>
      rw [receivedBy_cons hin (by rintro ⟨⟩)]
      dsimp only
      rw [resume_of_waits hwaits]
      exact ih h hwaits hasked hrest hlate'

/-- What becomes of a request from the moment at which the session begins to read it. -/
theorem Begins.outcome (h : s.Begins site limits now state) (events : List (Moment × Event)) :
    Outcome site limits events s state (resume site limits now events s state)
      (Request.prospect limits.maxBody (s.buffer ++ receivedBy s.deadline events)) := by
  obtain ⟨hphase, hdeadline⟩ := h.await
  have hreading : Reading s s := ⟨h.isOpen, rfl, rfl, rfl⟩
  have hin : now.clock ≤ s.deadline := hdeadline ▸ Nat.le_add_right _ _
  rw [← prospect_head hphase]
  refine hreading.outcome_resume_of hin Or.inl List.suffix_rfl fun t ht hstopping hwaits => ?_
  exact ht.outcome_report hwaits (fun hs => Or.inl (hstopping ▸ hs)) List.suffix_rfl id site state

/-- Either nothing is answered, or the first answer is in time and another request comes next. -/
theorem Outcome.first {r : Report} {p : Prospect}
    (h : Outcome site limits events origin state r p) :
    r.answered = [] ∨ ∃ answer request later t after, answer.clock ≤ origin.deadline ∧
      (t.isEnded = true ∨ t.Begins site limits answer after) ∧
        r = (resume site limits answer later t after).prepend [(answer, request)] := by
  cases h with
  | @answered request answer later t after h hin _ hnext =>
    exact Or.inr ⟨answer, request, later, t, after, hin, hnext, h⟩
  | refused h => exact Or.inl h.answered
  | silent h => exact Or.inl h.answered
  | stopped _ h => exact Or.inl h.answered

/-- Every answer comes within the time for its request, which begins with the answer before it. -/
theorem Begins.isChain_answered (h : s.Begins site limits now state)
    (events : List (Moment × Event)) :
    List.IsChain (fun before answer : Moment => answer.clock ≤ before.clock + limits.readTimeout)
      (now :: (resume site limits now events s state).answered.map Prod.fst) := by
  induction hn : (resume site limits now events s state).answered.length
    generalizing now s state events with
  | zero =>
    rw [List.eq_nil_of_length_eq_zero hn]
    exact .singleton now
  | succ n ih =>
    rcases (h.outcome events).first with hnone | ⟨answer, request, later, t, after, hin, hnext, hr⟩
    · rw [hnone] at hn
      cases hn
    · rw [hr] at hn ⊢
      refine .cons_cons (h.await.2 ▸ hin) ?_
      rcases hnext with hended | hbegins
      · rw [resume_of_waits (waits_of_isEnded hended), report_of_isEnded hended]
        exact .singleton answer
      · exact ih hbegins later (Nat.succ.inj hn)

/-- A session that starts and does not end at once begins to read its first request. -/
theorem begins_start (site : Site) {begin : Moment} (state : Site.State)
    (hopen : (start limits begin.clock).isEnded = false) :
    (start limits begin.clock).Begins site limits begin state := ⟨Or.inl rfl, hopen⟩

theorem report_start {begin : Moment} (hopen : (start limits begin.clock).isEnded = false)
    (events : List (Moment × Event)) :
    report site limits events (start limits begin.clock) state
      = resume site limits begin events (start limits begin.clock) state := by
  rw [resume_of_waits ((ready_start hopen).waits limits)]

/-- From its start on, a connection is never without an answer for longer than the time for a
request, as long as more answers come. -/
theorem isChain_answered (site : Site) (limits : Limits) (begin : Moment)
    (events : List (Moment × Event)) (state : Site.State) :
    List.IsChain (fun before answer : Moment => answer.clock ≤ before.clock + limits.readTimeout)
      (begin :: (report site limits events (start limits begin.clock) state).answered.map
        Prod.fst) := by
  cases hopen : (start limits begin.clock).isEnded with
  | true =>
    rw [report_of_isEnded hopen]
    exact .singleton begin
  | false =>
    rw [report_start hopen]
    exact (begins_start site state hopen).isChain_answered events

end Session

end ContentServer
