import ContentServer.Proofs.Session.Steps

/-!
# Reports on sessions

A report says what a session has done after a row of events: what it has become, what state it has
left, and which requests have gone to the site at which moments.  One thing is left out, namely the
bytes that an ended session has in its buffer.  Nobody looks at them any more, and they depend on
how the input was read.

Reports are made event by event.  `resume` is the report on a session that first deals with what it
has, and `report_cons` says that every event leads to one.

A session that has run out of time stays like that.  So if the report is that it has not, every
event came in time (`inTime_of_report`).
-/

namespace ContentServer.Session

variable {site : Site} {limits : Limits} {now : Moment} {s t : Session} {state after : Site.State}

/-! ## Receiving -/

theorem expire_of_isEnded (h : s.isEnded = true) (now : Time) : s.expire now = s := by
  rw [expire, h]
  rfl

theorem expire_of_inTime {now : Time} (h : s.InTime now) : s.expire now = s := by
  cases hopen : s.isEnded with
  | true => exact expire_of_isEnded hopen now
  | false =>
    have hlate : ¬ s.deadline < now := Nat.not_lt_of_le (h hopen)
    simp [expire, hlate]

theorem expire_of_late {now : Time} (hopen : s.isEnded = false) (hlate : s.deadline < now) :
    s.expire now = s.finish (.failed .readTimeout) := by
  simp [expire, hopen, hlate]

theorem inTime_expire (now : Time) (s : Session) : (s.expire now).InTime now := by
  intro hopen
  rcases Nat.lt_or_ge s.deadline now with hlate | hin
  · cases hs : s.isEnded with
    | true => rw [expire_of_isEnded hs, hs] at hopen; cases hopen
    | false => rw [expire_of_late hs hlate] at hopen; cases hopen
  · rw [expire_of_inTime fun _ => hin]
    exact hin

theorem stopping_expire (now : Time) (s : Session) : (s.expire now).stopping = s.stopping := by
  rw [expire]
  split <;> rfl

/-- An ended session takes no note of anything. -/
theorem receive_of_isEnded (h : s.isEnded = true) (now : Time) (event : Event) :
    s.receive now event = s := by
  simp [receive, expire_of_isEnded h, h]

theorem receive_of_late {now : Time} (hopen : s.isEnded = false) (hlate : s.deadline < now)
    (event : Event) : s.receive now event = s.finish (.failed .readTimeout) := by
  simp only [receive, expire_of_late hopen hlate]
  rfl

/-- What an event does to a session that is not late for it. -/
theorem receive_of_inTime {now : Time} (hopen : s.isEnded = false) (hin : s.InTime now)
    (event : Event) :
    s.receive now event =
      match event with
      | .bytes data => { s with buffer := s.buffer ++ data }
      | .endOfInput => s.hangUp
      | .stop => { s with stopping := true }
      | .tick => s := by
  simp only [receive, expire_of_inTime hin, hopen]
  rfl

theorem receive_expire (now : Time) (event : Event) (s : Session) :
    (s.expire now).receive now event = s.receive now event := by
  simp only [receive, expire_of_inTime (inTime_expire now s)]

/-- Reading does not make a session stop. -/
theorem stopping_read (site : Site) (limits : Limits) (now : Moment) (data : Bytes) (s : Session)
    (state : Site.State) :
    (settle site limits now (s.receive now.clock (.bytes data)) state).1.stopping = s.stopping := by
  rw [stopping_settle, ← stopping_expire now.clock s]
  cases hopen : (s.expire now.clock).isEnded <;> simp [receive, hopen]

/-! ## Reports -/

/-- The session without the bytes that it had not looked at when it ended. -/
def forget (s : Session) : Session := if s.isEnded then { s with buffer := [] } else s

theorem forget_of_isEnded (h : s.isEnded = true) : s.forget = { s with buffer := [] } := by
  rw [forget, if_pos h]

theorem forget_of_open (h : s.isEnded = false) : s.forget = s := by
  rw [forget, h]
  rfl

theorem output_forget (s : Session) : s.forget.output = s.output := by
  rw [forget]
  split <;> rfl

theorem served_forget (s : Session) : s.forget.served = s.served := by
  rw [forget]
  split <;> rfl

theorem phase_forget (s : Session) : s.forget.phase = s.phase := by
  rw [forget]
  split <;> rfl

/-- The requests that go to the site because of a row of events, each with its moment. -/
def answeredAll (site : Site) (limits : Limits) :
    List (Moment × Event) → Session → Site.State → List (Moment × Request)
  | [], _, _ => []
  | (now, event) :: events, s, state =>
    let r := s.handle site limits now event state
    (answered site limits now (s.receive now.clock event) state).map (now, ·) ++
      answeredAll site limits events r.1 r.2

/-- What is told of a session after a row of events. -/
structure Report where
  /-- The session. -/
  session : Session
  /-- The state of the site. -/
  state : Site.State
  /-- The requests that have gone to the site. -/
  answered : List (Moment × Request)

/-- The report with requests that went to the site before. -/
def Report.prepend (requests : List (Moment × Request)) (r : Report) : Report :=
  { r with answered := requests ++ r.answered }

theorem Report.prepend_append (requests others : List (Moment × Request)) (r : Report) :
    r.prepend (requests ++ others) = (r.prepend others).prepend requests := by
  rw [prepend, prepend, prepend, List.append_assoc]

/-- The report on a session after a row of events. -/
def report (site : Site) (limits : Limits) (events : List (Moment × Event)) (s : Session)
    (state : Site.State) : Report where
  session := (handleAll site limits events s state).1.forget
  state := (handleAll site limits events s state).2
  answered := answeredAll site limits events s state

/-- The report on a session that settles before the events. -/
def resume (site : Site) (limits : Limits) (now : Moment) (events : List (Moment × Event))
    (s : Session) (state : Site.State) : Report :=
  (report site limits events (settle site limits now s state).1
    (settle site limits now s state).2).prepend ((answered site limits now s state).map (now, ·))

theorem report_cons (now : Moment) (event : Event) (events : List (Moment × Event)) (s : Session)
    (state : Site.State) :
    report site limits ((now, event) :: events) s state
      = resume site limits now events (s.receive now.clock event) state := rfl

theorem report_expire (now : Moment) (event : Event) (events : List (Moment × Event))
    (s : Session) (state : Site.State) :
    report site limits ((now, event) :: events) (s.expire now.clock) state
      = report site limits ((now, event) :: events) s state := by
  rw [report_cons, receive_expire, ← report_cons]

theorem resume_of_waits (h : s.Waits limits) (now : Moment) (events : List (Moment × Event)) :
    resume site limits now events s state = report site limits events s state := by
  rw [resume, settle_of_waits h, answered_of_waits h]
  rfl

theorem resume_of_step (h : Step site limits now s state t state) (hdue : s.due? = none)
    (events : List (Moment × Event)) :
    resume site limits now events s state = resume site limits now events t state := by
  rw [resume, settle_of_step h, answered_of_step h, hdue]
  rfl

theorem resume_answer {request : Request} (hphase : s.phase = .body request 0)
    (events : List (Moment × Event)) :
    resume site limits now events s state
      = (resume site limits now events
          (s.reply limits now (site.answerAt s.served now request state).1)
          (site.answerAt s.served now request state).2).prepend [(now, request)] := by
  have hstep : Step site limits now s state _ _ := .answer hphase
  have hdue : s.due? = some request := due?_eq_some_iff.mpr hphase
  rw [resume, settle_of_step hstep, answered_of_step hstep, hdue, Option.toList_some,
    List.map_append, Report.prepend_append]
  rfl

/-- Nothing happens to an ended session. -/
theorem report_cons_of_isEnded (h : s.isEnded = true) (now : Moment) (event : Event)
    (events : List (Moment × Event)) (state : Site.State) :
    report site limits ((now, event) :: events) s state = report site limits events s state := by
  rw [report_cons, receive_of_isEnded h, resume_of_waits (waits_of_isEnded h)]

theorem report_of_isEnded (h : s.isEnded = true) (events : List (Moment × Event))
    (state : Site.State) : report site limits events s state = ⟨s.forget, state, []⟩ := by
  induction events with
  | nil => rfl
  | cons first events ih =>
    obtain ⟨now, event⟩ := first
    rw [report_cons_of_isEnded h, ih]

theorem phase_report_of_isEnded (h : s.isEnded = true) (events : List (Moment × Event))
    (state : Site.State) : (report site limits events s state).session.phase = s.phase := by
  rw [report_of_isEnded h]
  exact phase_forget s

/-! ## Running out of time -/

/-- Whether a session has ended because of its deadline. -/
def RanOutOfTime (s : Session) : Prop :=
  s.phase = .ended (.failed .readTimeout) ∨ s.phase = .ended .noDeadline

theorem isEnded_of_ranOutOfTime (h : s.RanOutOfTime) : s.isEnded = true := by
  rcases h with h | h <;> rw [isEnded, h]

theorem ranOutOfTime_forget : s.forget.RanOutOfTime ↔ s.RanOutOfTime := by
  rw [RanOutOfTime, RanOutOfTime, phase_forget]

theorem ranOutOfTime_report (h : s.RanOutOfTime) (events : List (Moment × Event))
    (state : Site.State) : (report site limits events s state).session.RanOutOfTime := by
  rw [report_of_isEnded (isEnded_of_ranOutOfTime h)]
  exact ranOutOfTime_forget.mpr h

/-- A session that does not run out of time gets every event before its deadline. -/
theorem inTime_of_report {event : Event} {events : List (Moment × Event)}
    (h : ¬ (report site limits ((now, event) :: events) s state).session.RanOutOfTime) :
    s.InTime now.clock := by
  intro hopen
  refine Nat.le_of_not_lt fun hlate => h ?_
  rw [← report_expire, expire_of_late hopen hlate]
  exact ranOutOfTime_report (Or.inl rfl) _ _

end ContentServer.Session
