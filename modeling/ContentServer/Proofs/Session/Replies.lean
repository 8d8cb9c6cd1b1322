import ContentServer.Proofs.Session.Reports
import ContentServer.Proofs.Site.Answers

/-!
# Replies of a session

Every answer of a site can be written to its end, so after a reply the session has sent one answer
more and has served one request more.  If the answer keeps the connection open the session reads on,
and otherwise it has ended (`reply_of_written`).

The deadline for the next request is set in a reply.  At the moment of the reply it is not over, and
therefore a connection that is served within one moment never runs out of time
(`not_ranOutOfTime_serve`).
-/

namespace ContentServer.Session

variable {site : Site} {limits : Limits} {now : Moment} {s t : Session} {state after : Site.State}
variable {response : Response}

/-! ## Sending an answer -/

theorem output_await (limits : Limits) (now : Time) (s : Session) :
    (s.await limits now).output = s.output := by
  rw [await]
  split <;> rfl

theorem served_await (limits : Limits) (now : Time) (s : Session) :
    (s.await limits now).served = s.served := by
  rw [await]
  split <;> rfl

theorem output_start (limits : Limits) (now : Time) : (start limits now).output = [] :=
  output_await limits now {}

theorem served_start (limits : Limits) (now : Time) : (start limits now).served = 0 :=
  served_await limits now {}

/-- The session that has sent an answer. -/
def sent (response : Response) (s : Session) : Session :=
  { s.send response.write.1 with served := s.served + 1 }

/-- A reply is an answer that is sent, and then the session reads on or ends. -/
theorem reply_of_written (hwritten : ∃ n, response.write.2 = .ok n) (limits : Limits) (now : Moment)
    (s : Session) :
    s.reply limits now response =
      if response.keepAlive then (s.sent response).await limits now.clock
      else (s.sent response).finish .answered := by
  obtain ⟨n, hn⟩ := hwritten
  simp only [reply, hn, sent, send]

theorem output_reply (hwritten : ∃ n, response.write.2 = .ok n) (limits : Limits) (now : Moment)
    (s : Session) : (s.reply limits now response).output = s.output ++ response.write.1 := by
  rw [reply_of_written hwritten]
  split
  · exact output_await limits now.clock _
  · rfl

theorem served_reply (hwritten : ∃ n, response.write.2 = .ok n) (limits : Limits) (now : Moment)
    (s : Session) : (s.reply limits now response).served = s.served + 1 := by
  rw [reply_of_written hwritten]
  split
  · exact served_await limits now.clock _
  · rfl

/-- A session has ended after a reply that closes the connection. -/
theorem isEnded_reply (hwritten : ∃ n, response.write.2 = .ok n)
    (hkeep : ¬ response.keepAlive = true) (limits : Limits) (now : Moment) (s : Session) :
    (s.reply limits now response).isEnded = true := by
  rw [reply_of_written hwritten, if_neg hkeep]
  rfl

/-! ## Sessions within one moment -/

theorem not_ranOutOfTime_await {now deadline : Time}
    (hlater : Clock.later? now limits.readTimeout = some deadline) (s : Session) :
    ¬ (s.await limits now).RanOutOfTime := by
  rw [await, hlater]
  rintro (h | h) <;> cases h

/-- No step makes a session run out of time while the clock can show the deadline. -/
theorem Step.not_ranOutOfTime (h : Step site limits now s state t after) {deadline : Time}
    (hlater : Clock.later? now.clock limits.readTimeout = some deadline) : ¬ t.RanOutOfTime := by
  cases h with
  | @answer request hphase =>
    rw [reply_of_written (site.answerAt_answer s.served now request state).written]
    split
    · exact not_ranOutOfTime_await hlater _
    · rintro (h | h) <;> cases h
  | discard => rintro (h | h) <;> cases h
  | blank hphase => rintro (h | h) <;> cases hphase.symm.trans h
  | refuse => rintro (h | h) <;> cases h
  | accept => rintro (h | h) <;> cases h
  | stop => rintro (h | h) <;> cases h

theorem not_ranOutOfTime_settle {deadline : Time}
    (hlater : Clock.later? now.clock limits.readTimeout = some deadline) (hs : ¬ s.RanOutOfTime)
    (site : Site) (state : Site.State) :
    ¬ (settle site limits now s state).1.RanOutOfTime := by
  induction s, state using settle_induction site limits now with
  | waits s state h => rw [settle_of_waits h]; exact hs
  | step s state t after h ih => rw [settle_of_step h]; exact ih (h.not_ranOutOfTime hlater)

theorem hangUp_of_open (hopen : s.isEnded = false) :
    s.hangUp = s.finish .complete ∨ s.hangUp = s.finish (.failed .peerClosed) := by
  rw [hangUp]
  rcases phase_of_open hopen with hphase | ⟨request, missing, hphase⟩
  · rw [hphase]
    dsimp only
    split
    · exact Or.inl rfl
    · exact Or.inr rfl
  · rw [hphase]
    exact Or.inr rfl

/-- A session in time stays in time when it takes note of an event. -/
theorem receive_inTime {now : Time} (hs : s.InTime now) (hopen : ¬ s.RanOutOfTime) (event : Event) :
    (s.receive now event).InTime now ∧ ¬ (s.receive now event).RanOutOfTime := by
  cases hended : s.isEnded with
  | true => rw [receive_of_isEnded hended]; exact ⟨hs, hopen⟩
  | false =>
    rw [receive_of_inTime hended hs]
    cases event with
    | bytes data => exact ⟨hs, hopen⟩
    | stop => exact ⟨hs, hopen⟩
    | tick => exact ⟨hs, hopen⟩
    | endOfInput =>
      show s.hangUp.InTime now ∧ ¬ s.hangUp.RanOutOfTime
      rcases hangUp_of_open hended with h | h
      · rw [h]
        exact ⟨inTime_finish .complete now s, by rintro (h | h) <;> cases h⟩
      · rw [h]
        exact ⟨inTime_finish (.failed .peerClosed) now s, by rintro (h | h) <;> cases h⟩

/-- A session to which everything happens at one moment does not run out of time. -/
theorem not_ranOutOfTime_handleAll {deadline : Time}
    (hlater : Clock.later? now.clock limits.readTimeout = some deadline)
    {events : List (Moment × Event)} (hnow : ∀ event ∈ events, event.1 = now)
    (hs : s.InTime now.clock) (hopen : ¬ s.RanOutOfTime) (site : Site) (state : Site.State) :
    ¬ (handleAll site limits events s state).1.RanOutOfTime := by
  induction events generalizing s state with
  | nil => exact hopen
  | cons first events ih =>
    obtain ⟨time, event⟩ := first
    obtain rfl : time = now := hnow _ List.mem_cons_self
    obtain ⟨hin, hopen⟩ := receive_inTime hs hopen event
    have hrest := fun event h => hnow event (List.mem_cons_of_mem _ h)
    exact ih hrest (inTime_settle site limits state hin)
      (not_ranOutOfTime_settle hlater hopen site state) _

/-- A connection that is served at one moment is not ended by its deadline. -/
theorem not_ranOutOfTime_serve {deadline : Time}
    (hlater : Clock.later? now.clock limits.readTimeout = some deadline) (site : Site)
    (pieces : List Bytes) (state : Site.State) :
    ¬ (serve site limits now pieces state).1.RanOutOfTime := by
  refine not_ranOutOfTime_handleAll hlater ?_ (inTime_await limits now.clock {})
    (not_ranOutOfTime_await hlater {}) site state
  intro event h
  rcases List.mem_append.mp h with h | h
  · obtain ⟨piece, -, rfl⟩ := List.mem_map.mp h
    rfl
  · rw [List.mem_singleton.mp h]

end ContentServer.Session
