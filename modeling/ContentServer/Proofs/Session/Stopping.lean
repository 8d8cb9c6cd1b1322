import ContentServer.Proofs.Session.Begun
import ContentServer.Proofs.Session.Stream

/-!
# Sessions that are asked to stop

A server that stops asks its sessions to stop, and it may ask a session at any moment.  All that the
session does differently from then on is that it ends when it is idle, that is, when it waits for a
head and has nothing in its buffer (`resume_asked`).  Up to that point it does what it would have
done anyway, and so nothing of a request is lost that has begun.

* The requests that are complete in the buffer are answered, up to the first one that closes the
  connection (`Holds.answers`).
* A request that has begun but is not complete is read on.  `Fate` lists all that can become of it.
* All that the session sends, before and after, is a row of whole responses (`Reached.written`).
-/

namespace ContentServer.Session

variable {site : Site} {limits : Limits} {now : Moment} {s t : Session} {state after : Site.State}

/-! ## Asking a session to stop -/

/-- The session that has been asked to stop. -/
def asked (s : Session) : Session := { s with stopping := true }

/-- What becomes of a waiting session that is asked to stop.  It ends if it is idle. -/
def halted (s : Session) : Session := if s.isIdle then s.asked.finish .complete else s.asked

theorem isEnded_halted (h : s.isIdle = true) : s.halted.isEnded = true := by
  rw [halted, if_pos h]
  rfl

theorem asked_await (limits : Limits) (now : Time) (s : Session) :
    s.asked.await limits now = (s.await limits now).asked := by
  simp only [await]
  split <;> rfl

theorem asked_reply (limits : Limits) (now : Moment) (response : Response) (s : Session) :
    s.asked.reply limits now response = (s.reply limits now response).asked := by
  simp only [reply]
  split
  · rfl
  · split
    · exact asked_await limits now.clock { s.send response.write.1 with served := s.served + 1 }
    · rfl

/-- A session that has been asked to stop takes all steps that it would have taken anyway. -/
theorem Step.asked (h : Step site limits now s state t after) :
    Step site limits now s.asked state t.asked after := by
  cases h with
  | @answer request hphase =>
    rw [← asked_reply]
    exact .answer hphase
  | discard hphase hmissing hbuffer => exact .discard hphase hmissing hbuffer
  | blank hphase hblank => exact .blank hphase hblank
  | refuse hphase hblank hparse => exact .refuse hphase hblank hparse
  | accept hphase hblank hparse => exact .accept hphase hblank hparse
  | stop hphase hbuffer => exact .stop hphase hbuffer rfl

theorem Waits.asked (h : s.Waits limits) (hbusy : ¬ s.isIdle = true) : s.asked.Waits limits := by
  rw [isIdle_iff] at hbusy
  rw [Waits] at h ⊢
  rw [show s.asked.phase = s.phase from rfl]
  cases hphase : s.phase with
  | ended how => trivial
  | body request missing =>
    rw [hphase] at h
    exact h
  | head =>
    rw [hphase] at h
    exact ⟨h.1, h.2.1, fun hidle => hbusy ⟨hphase, hidle.1⟩⟩

/-- The step that it takes besides is the one that ends it when it is idle. -/
theorem settle_asked (site : Site) (limits : Limits) (now : Moment) (s : Session)
    (state : Site.State) :
    settle site limits now s.asked state
        = ((settle site limits now s state).1.halted, (settle site limits now s state).2) ∧
      answered site limits now s.asked state = answered site limits now s state := by
  induction s, state using settle_induction site limits now with
  | step s state t after hstep ih =>
    rw [settle_of_step hstep, settle_of_step hstep.asked, answered_of_step hstep,
      answered_of_step hstep.asked, ih.1, ih.2]
    exact ⟨rfl, rfl⟩
  | waits s state hwaits =>
    rw [settle_of_waits hwaits, answered_of_waits hwaits]
    by_cases hidle : s.isIdle = true
    · obtain ⟨hphase, hbuffer⟩ := isIdle_iff.mp hidle
      have hstop : Step site limits now s.asked state s.halted state := by
        rw [halted, if_pos hidle]
        exact .stop hphase hbuffer rfl
      have hended : s.halted.Waits limits := waits_of_isEnded (isEnded_halted hidle)
      have hdue : s.asked.due? = none := due?_eq_none_of_head hphase
      rw [settle_of_step hstop, settle_of_waits hended, answered_of_step hstop,
        answered_of_waits hended, hdue]
      exact ⟨rfl, rfl⟩
    · have hon := hwaits.asked hidle
      rw [settle_of_waits hon, answered_of_waits hon, halted, if_neg hidle]
      exact ⟨rfl, rfl⟩

/-! ## Until a session is idle -/

/-- What a session that has been asked to stop makes of an event.  It cannot be asked again. -/
def Event.muted : Event → Event
  | .stop => .tick
  | event => event

theorem asked_expire (now : Time) (s : Session) : s.asked.expire now = (s.expire now).asked := by
  rw [expire, expire, apply_ite Session.asked]
  rfl

theorem asked_hangUp (s : Session) : s.asked.hangUp = s.hangUp.asked := by
  rw [hangUp, hangUp, show s.asked.phase = s.phase from rfl]
  cases s.phase with
  | ended how => rfl
  | body request missing => rfl
  | head =>
    dsimp only
    rw [apply_ite Session.asked]
    rfl

theorem asked_receive (now : Time) (event : Event) (s : Session) :
    s.asked.receive now event = (s.receive now event.muted).asked := by
  simp only [receive, asked_expire]
  rw [show (s.expire now).asked.isEnded = (s.expire now).isEnded from rfl,
    apply_ite Session.asked]
  cases event with
  | endOfInput => rw [asked_hangUp]; rfl
  | bytes data => rfl
  | stop => rfl
  | tick => rfl

/-- The events of which none asks a session to stop. -/
def mute (events : List (Moment × Event)) : List (Moment × Event) :=
  events.map fun (now, event) => (now, event.muted)

/-- The report on the session if it is asked to stop then. -/
def Report.halted (r : Report) : Report := { r with session := r.session.halted }

theorem halted_of_isEnded (h : s.isEnded = true) : s.halted = s.asked := by
  rw [halted, if_neg]
  rw [isIdle_iff]
  rintro ⟨hphase, -⟩
  rw [isEnded, hphase] at h
  cases h

theorem forget_halted (s : Session) : s.halted.forget = s.forget.halted := by
  cases hended : s.isEnded with
  | true =>
    have hasked : s.asked.isEnded = true := hended
    have hforget : { s with buffer := [] }.isEnded = true := hended
    rw [halted_of_isEnded hended, forget_of_isEnded hasked, forget_of_isEnded hended,
      halted_of_isEnded hforget]
    rfl
  | false =>
    rw [forget_of_open hended]
    by_cases hidle : s.isIdle = true
    · rw [forget_of_isEnded (isEnded_halted hidle), halted, if_pos hidle,
        ← (isIdle_iff.mp hidle).2]
      rfl
    · have hasked : s.asked.isEnded = false := hended
      rw [halted, if_neg hidle, forget_of_open hasked]

theorem isIdle_forget (s : Session) : s.forget.isIdle = s.isIdle := by
  cases hended : s.isEnded with
  | false => rw [forget_of_open hended]
  | true =>
    have hphase : s.phase ≠ .head := by
      intro hphase
      rw [isEnded, hphase] at hended
      cases hended
    rw [isIdle, isIdle, phase_forget, beq_false_of_ne hphase, Bool.false_and, Bool.false_and]

theorem resume_asked_eq (now : Moment) (later : List (Moment × Event)) (s : Session)
    (state : Site.State) :
    resume site limits now later s.asked state
      = (report site limits later (settle site limits now s state).1.halted
          (settle site limits now s state).2).prepend
            ((answered site limits now s state).map (now, ·)) := by
  obtain ⟨hsettle, hanswered⟩ := settle_asked site limits now s state
  rw [resume, hsettle, hanswered]

/-- From a moment at which it waits, a session that has been asked to stop hears of what happens
until it is idle, and then it ends. -/
theorem report_halted (site : Site) (limits : Limits) (later : List (Moment × Event)) (s : Session)
    (state : Site.State) :
    ∃ heard unheard, later = heard ++ unheard ∧
      report site limits later s.halted state
        = (report site limits (mute heard) s state).halted ∧
      (unheard ≠ [] → (report site limits (mute heard) s state).session.isIdle = true) := by
  -- The session of the induction has not been asked.  The other one is what it would be now if it
  -- had been asked before.
  induction later generalizing s state with
  | nil =>
    refine ⟨[], [], rfl, ?_, fun hne => absurd rfl hne⟩
    rw [report, report, Report.halted]
    dsimp only [handleAll, mute, List.map_nil]
    rw [forget_halted]
    rfl
  | cons first later ih =>
    obtain ⟨now, event⟩ := first
    by_cases hidle : s.isIdle = true
    · refine ⟨[], (now, event) :: later, rfl, ?_, fun _ => (isIdle_forget s).trans hidle⟩
      rw [report_of_isEnded (isEnded_halted hidle), forget_halted]
      rfl
    · obtain ⟨heard, unheard, hlater, hreport, hrest⟩ :=
        ih (settle site limits now (s.receive now.clock event.muted) state).1
          (settle site limits now (s.receive now.clock event.muted) state).2
      refine ⟨(now, event) :: heard, unheard, by rw [hlater]; rfl, ?_, hrest⟩
      rw [halted, if_neg hidle, report_cons, asked_receive, resume_asked_eq, hreport]
      rfl

/-- A session that is asked to stop does what it would have done anyway, until it is idle. -/
theorem resume_asked (site : Site) (limits : Limits) (now : Moment)
    (later : List (Moment × Event)) (s : Session) (state : Site.State) :
    ∃ heard unheard, later = heard ++ unheard ∧
      resume site limits now later s.asked state
        = (resume site limits now (mute heard) s state).halted ∧
      (unheard ≠ [] → (resume site limits now (mute heard) s state).session.isIdle = true) := by
  obtain ⟨heard, unheard, hlater, hreport, hrest⟩ :=
    report_halted site limits later (settle site limits now s state).1
      (settle site limits now s state).2
  refine ⟨heard, unheard, hlater, ?_, hrest⟩
  rw [resume_asked_eq, hreport]
  rfl

/-- A waiting session is asked to stop by an event. -/
theorem report_stop (hopen : s.isEnded = false) (hin : s.InTime now.clock)
    (later : List (Moment × Event)) (state : Site.State) :
    report site limits ((now, .stop) :: later) s state
      = resume site limits now later s.asked state := by
  rw [report_cons, receive_of_inTime hopen hin]
  rfl

/-! ## Any moment -/

/-- A session at any moment before it is asked to stop: it has taken some steps, and taken note of
some events. -/
inductive Reached (site : Site) (limits : Limits) (begin : Time) (initial : Site.State) :
    Session → Site.State → Prop where
  | start : Reached site limits begin initial (start limits begin) initial
  | step {s t : Session} {state after : Site.State} {now : Moment}
      (h : Reached site limits begin initial s state)
      (hstep : Step site limits now s state t after) : Reached site limits begin initial t after
  | receive {s : Session} {state : Site.State} (h : Reached site limits begin initial s state)
      (now : Time) {event : Event} (hevent : event ≠ .stop) :
      Reached site limits begin initial (s.receive now event) state

variable {begin : Time} {initial : Site.State} {requests : List (Moment × Request)}

theorem stopping_receive {event : Event} (hevent : event ≠ .stop) (now : Time) (s : Session) :
    (s.receive now event).stopping = s.stopping := by
  rw [← stopping_expire now s]
  unfold receive
  dsimp only
  split
  · rfl
  · next hopen =>
    cases event with
    | bytes data => rfl
    | endOfInput =>
      show (s.expire now).hangUp.stopping = _
      rcases hangUp_of_open (Bool.eq_false_iff.mpr hopen) with h | h <;> rw [h] <;> rfl
    | stop => exact absurd rfl hevent
    | tick => rfl

theorem Reached.stopping (h : Reached site limits begin initial s state) : s.stopping = false := by
  induction h with
  | start => exact stopping_start limits begin
  | step h hstep ih => rw [hstep.stopping, ih]
  | receive h now hevent ih => rw [stopping_receive hevent, ih]

/-- At any moment, whole responses have been sent. -/
theorem Reached.written (h : Reached site limits begin initial s state) :
    ∃ requests, Written site initial requests s state := by
  induction h with
  | start => exact ⟨[], written_start site limits begin initial⟩
  | @step s t state after now h hstep ih =>
    obtain ⟨requests, hwritten⟩ := ih
    exact ⟨_, hwritten.step hstep⟩
  | @receive s state h now event hevent ih =>
    obtain ⟨requests, hwritten⟩ := ih
    exact ⟨requests, hwritten.receive now event⟩

/-- A session that has been asked to stop and has nothing but line breaks ends, whatever comes. -/
theorem resume_blank (hstopping : s.stopping = true) (hphase : s.phase = .head)
    (hblank : Request.blankLength s.buffer = s.buffer.length) (now : Moment)
    (later : List (Moment × Event)) (state : Site.State) :
    resume site limits now later s state
      = ⟨({ s with buffer := [] } : Session).finish .complete, state, []⟩ := by
  let bare : Session := { s with buffer := [] }
  have hstop : Step site limits now bare state (bare.finish .complete) state :=
    .stop hphase rfl hstopping
  have hended : (bare.finish .complete).isEnded = true := rfl
  have hbare : resume site limits now later bare state = ⟨bare.finish .complete, state, []⟩ := by
    rw [resume_of_step hstop (due?_eq_none_of_head hphase),
      resume_of_waits (waits_of_isEnded hended), report_of_isEnded hended]
    rfl
  cases hbuffer : s.buffer with
  | nil =>
    have hs : s = bare := by
      show s = { s with buffer := [] }
      rw [← hbuffer]
    rw [hs]
    exact hbare
  | cons b bs =>
    have hstep : Step site limits now s state bare state := by
      have hpos : 0 < Request.blankLength s.buffer := by
        rw [hblank, hbuffer]
        exact Nat.succ_pos _
      have hdrop : Step site limits now s state
          { s with buffer := s.buffer.drop (Request.blankLength s.buffer) } state :=
        .blank hphase hpos
      rwa [hblank, List.drop_length] at hdrop
    rw [resume_of_step hstep (due?_eq_none_of_head hphase)]
    exact hbare

/-- A session that is asked to stop, at any moment, only stops between two requests.  The complete
requests that it has are answered, up to the first one that closes the connection.  If none of them
does, the session also goes on with a request that has begun behind them, and if the bytes that come
make that one complete, it is answered, too. -/
theorem stops_between_requests (h : Reached site limits begin initial s state) (now : Moment)
    (later : List (Moment × Event)) :
    let r := resume site limits now later s.asked state
    s.stopping = false ∧
    (s.isEnded = false → s.InTime now.clock →
      report site limits ((now, .stop) :: later) s state = r) ∧
    -- It goes on as if it had not been asked, until it is idle.
    (∃ heard unheard, later = heard ++ unheard ∧
      let quiet := resume site limits now (mute heard) s state
      r = quiet.halted ∧ (unheard ≠ [] → quiet.session.isIdle = true)) ∧
    -- Requests that are complete or have begun are answered.
    (∀ requests rest, s.Holds limits requests rest → r.Answers (Request.upToClose requests)) ∧
    (∀ requests, s.BegunBehind limits requests →
      (∀ request ∈ requests, request.keepAlive = true) →
        Fate limits later requests.length r ∧
        ∀ soon, soon <+: later → (∀ event ∈ soon, event.2 ≠ .endOfInput) →
          ∀ request rest, (s.append (received soon)).Holds limits (requests ++ [request]) rest →
            r.Answers (requests ++ [request])) ∧
    -- All that is sent is a row of whole responses.
    (∃ earlier, Written site initial (earlier ++ r.answered) r.session r.state) ∧
    -- A session that has been asked before ends where it finds nothing but line breaks.
    ∀ t after, t.stopping = true → t.phase = .head →
      Request.blankLength t.buffer = t.buffer.length →
        resume site limits now later t after
          = ⟨({ t with buffer := [] } : Session).finish .complete, after, []⟩ := by
  intro r
  refine ⟨h.stopping, fun hopen hin => report_stop hopen hin later state,
    resume_asked site limits now later s state, ?_, ?_, ?_, ?_⟩
  · intro requests rest hs
    have hasked : s.asked.Holds limits requests rest := hs
    exact hasked.answers site now later state
  · intro requests hbegun hkeep
    have hasked : s.asked.BegunBehind limits requests := hbegun
    refine ⟨hasked.fate hkeep site now later state, ?_⟩
    rintro soon ⟨late, rfl⟩ hopen request rest hcoming
    have hcoming : (s.asked.append (received soon)).Holds limits (requests ++ [request]) rest :=
      hcoming
    exact hasked.answers hkeep hcoming hopen late site now state
  · obtain ⟨requests, hwritten⟩ := h.written
    have hasked : Written site initial requests s.asked state := hwritten.of_same rfl rfl rfl
    exact ⟨requests, hasked.resume now later⟩
  · intro t after hstopping hphase hblank
    exact resume_blank hstopping hphase hblank now later after

/-- A session that is asked to stop when it has one request and the first word of another. -/
theorem stops_behind_a_request_in_two_reads :
    let site := Site.ofLibrary "/f" ⟨"/content"⟩ {} (fun _ => Codec.failing) ⟨fun _ => none, []⟩
    let limits : Limits := { readTimeout := 5, maxBody := 20 }
    let now : Moment := ⟨3, 0⟩
    let initial : Site.State := { cache := ⟨4, []⟩ }
    let first := Bytes.ofText "GET /a HTTP/1.1\r\n\r\n"
    let word := Bytes.ofText "GET "
    let s := (start limits 3).receive 3 (.bytes (first ++ word))
    let later := [(now, .bytes (Bytes.ofText "/b HTTP/1.1\r\n\r\n")), (now, .endOfInput)]
    Reached site limits 3 initial s initial ∧
      (resume site limits now later s.asked initial).Answers
        [{ method := .get, target := "/a", version := .v11 },
         { method := .get, target := "/b", version := .v11 }] := by
  have hfirst : Request.parse 20 (Bytes.ofText "GET /a HTTP/1.1\r\n\r\n")
      = .ok (some ({ method := .get, target := "/a", version := .v11 }, 19)) := rfl
  have hsecond : Request.parse 20 (Bytes.ofText "GET " ++ Bytes.ofText "/b HTTP/1.1\r\n\r\n")
      = .ok (some ({ method := .get, target := "/b", version := .v11 }, 19)) := rfl
  intro site limits now initial first word s later
  let soon : List (Moment × Event) := [(now, .bytes (Bytes.ofText "/b HTTP/1.1\r\n\r\n"))]
  let a : Message limits.maxBody := ⟨[], first, [], _, nofun, hfirst, rfl⟩
  let b : Message limits.maxBody := ⟨[], _, [], _, nofun, hsecond, rfl⟩
  have hreached : Reached site limits 3 initial s initial := .receive .start 3 (fun h => nomatch h)
  have hholds : s.Holds limits [a.request] word := ⟨[a], rfl, rfl⟩
  have hbegun : s.BegunBehind limits [a.request] := Or.inr ⟨word, hholds, by decide⟩
  have hkeep : ∀ request ∈ [a.request], request.keepAlive = true := by
    intro request h
    rw [List.mem_singleton.mp h]
    rfl
  have hopen : ∀ event ∈ soon, event.2 ≠ .endOfInput := by
    intro event h
    rw [List.mem_singleton.mp h]
    exact fun h => nomatch h
  have hcoming : (s.append (received soon)).Holds limits ([a.request] ++ [b.request]) [] :=
    ⟨[a, b], rfl, rfl⟩
  obtain ⟨-, -, -, -, hanswers, -⟩ := stops_between_requests hreached now later
  exact ⟨hreached, (hanswers [a.request] hbegun hkeep).2 soon ⟨[(now, .endOfInput)], rfl⟩ hopen
    b.request [] hcoming⟩

end ContentServer.Session
