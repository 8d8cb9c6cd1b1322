import ContentServer.Session

/-!
# Steps of a session

What a session does next is one of six things.  `Step` lists them, each with what makes the session
do it, and `step_eq_some_iff` says that these are the steps that `Session.step` takes.  A session
that takes no step waits, and `Waits` says what it looks like.

A session settles by taking steps until it waits.  The requests that go to the site meanwhile are
`answered`, and `settle_snd` says that nothing else changes the state of the site.
-/

namespace ContentServer.Session

variable {site : Site} {limits : Limits} {now : Moment} {s t : Session} {state after : Site.State}

/-! ## Six kinds of steps -/

/-- A step of a session, with what makes the session take it. -/
inductive Step (site : Site) (limits : Limits) (now : Moment) (s : Session) (state : Site.State) :
    Session → Site.State → Prop where
  /-- The body is there in full, and its request goes to the site. -/
  | answer {request : Request} (hphase : s.phase = .body request 0) :
      Step site limits now s state
        (s.reply limits now (site.answerAt s.served now request state).1)
        (site.answerAt s.served now request state).2
  /-- Bytes of a body are dropped. -/
  | discard {request : Request} {missing : Nat} (hphase : s.phase = .body request missing)
      (hmissing : 0 < missing) (hbuffer : s.buffer ≠ []) :
      Step site limits now s state
        { s with phase := .body request (missing - s.buffer.length),
                 buffer := s.buffer.drop missing } state
  /-- Line breaks between two requests are dropped. -/
  | blank (hphase : s.phase = .head) (hblank : 0 < Request.blankLength s.buffer) :
      Step site limits now s state
        { s with buffer := s.buffer.drop (Request.blankLength s.buffer) } state
  /-- A head is refused. -/
  | refuse {cause : RequestFault} (hphase : s.phase = .head)
      (hblank : Request.blankLength s.buffer = 0)
      (hparse : Request.parse limits.maxBody s.buffer = .error cause) :
      Step site limits now s state (s.refuse now cause) state
  /-- A head is accepted, and its body comes next. -/
  | accept {request : Request} {n : Nat} (hphase : s.phase = .head)
      (hblank : Request.blankLength s.buffer = 0)
      (hparse : Request.parse limits.maxBody s.buffer = .ok (some (request, n))) :
      Step site limits now s state
        { s with phase := .body request request.contentLength, buffer := s.buffer.drop n } state
  /-- An idle session ends because the server stops. -/
  | stop (hphase : s.phase = .head) (hbuffer : s.buffer = []) (hstopping : s.stopping = true) :
      Step site limits now s state (s.finish .complete) state

theorem Step.of_step (h : step site limits now s state = some (t, after)) :
    Step site limits now s state t after := by
  rw [Session.step] at h
  split at h
  · cases h
  · next request missing hphase =>
    split at h
    · next hmissing =>
      subst hmissing
      cases h
      exact .answer hphase
    · next hmissing =>
      split at h
      · cases h
      · next hbuffer =>
        cases h
        exact .discard hphase (Nat.pos_of_ne_zero hmissing) (by simpa using hbuffer)
  · next hphase =>
    dsimp only at h
    split at h
    · next hblank =>
      cases h
      exact .blank hphase hblank
    · next hblank =>
      have hblank : Request.blankLength s.buffer = 0 := by omega
      split at h
      · next cause hparse =>
        cases h
        exact .refuse hphase hblank hparse
      · next request n hparse =>
        cases h
        exact .accept hphase hblank hparse
      · split at h
        · next hstop =>
          cases h
          simp only [Bool.and_eq_true, List.isEmpty_iff] at hstop
          exact .stop hphase hstop.1 hstop.2
        · cases h

theorem Step.step (h : Step site limits now s state t after) :
    step site limits now s state = some (t, after) := by
  rw [Session.step]
  cases h with
  | answer hphase => simp only [hphase, if_true]
  | discard hphase hmissing hbuffer =>
    simp only [hphase, if_neg (Nat.ne_of_gt hmissing), List.isEmpty_iff, if_neg hbuffer]
  | blank hphase hblank => simp only [hphase, if_pos hblank]
  | refuse hphase hblank hparse =>
    simp only [hphase, hblank, Nat.lt_irrefl, if_false, hparse]
  | accept hphase hblank hparse =>
    simp only [hphase, hblank, Nat.lt_irrefl, if_false, hparse]
  | stop hphase hbuffer hstopping =>
    have hblank : Request.blankLength [] = 0 := rfl
    have hparse : Request.parse limits.maxBody [] = .ok none := rfl
    simp only [hphase, hbuffer, hblank, Nat.lt_irrefl, if_false, hparse, hstopping,
      List.isEmpty_nil, Bool.and_self, if_true]

/-- The steps of a session are these and no others. -/
theorem step_eq_some_iff :
    step site limits now s state = some (t, after) ↔ Step site limits now s state t after :=
  ⟨Step.of_step, Step.step⟩

/-- A session that has dealt with all that it can.  It has ended, or some of a body is missing, or
some of a head. -/
def Waits (limits : Limits) (s : Session) : Prop :=
  match s.phase with
  | .ended _ => True
  | .body _ missing => 0 < missing ∧ s.buffer = []
  | .head => Request.blankLength s.buffer = 0 ∧
      Request.parse limits.maxBody s.buffer = .ok none ∧ ¬ (s.buffer = [] ∧ s.stopping = true)

/-- A session takes no step iff it waits. -/
theorem step_eq_none_iff : step site limits now s state = none ↔ s.Waits limits := by
  rw [Session.step, Waits]
  cases s.phase with
  | ended how => exact ⟨fun _ => trivial, fun _ => rfl⟩
  | body request missing =>
    dsimp only
    by_cases hmissing : missing = 0
    · rw [if_pos hmissing, hmissing]
      simp
    · rw [if_neg hmissing]
      by_cases hbuffer : s.buffer = []
      · simp [hbuffer, Nat.pos_of_ne_zero hmissing]
      · simp [hbuffer]
  | head =>
    dsimp only
    by_cases hblank : Request.blankLength s.buffer = 0
    · rw [if_neg (by omega)]
      cases hparse : Request.parse limits.maxBody s.buffer with
      | error cause => simp
      | ok found =>
        cases found with
        | none => simp [hblank]
        | some parsed => simp
    · rw [if_pos (Nat.pos_of_ne_zero hblank)]
      simp [hblank]

/-- An ended session waits forever. -/
theorem waits_of_isEnded (h : s.isEnded = true) : s.Waits limits := by
  rw [isEnded] at h
  rw [Waits]
  split at h
  · next how hphase => rw [hphase]; trivial
  · cases h

/-- A session that has not ended reads a head or drops a body. -/
theorem phase_of_open (h : s.isEnded = false) :
    s.phase = .head ∨ ∃ request missing, s.phase = .body request missing := by
  cases hphase : s.phase with
  | ended how => rw [isEnded, hphase] at h; cases h
  | body request missing => exact Or.inr ⟨request, missing, rfl⟩
  | head => exact Or.inl rfl

/-- An ended session takes no step. -/
theorem Step.isEnded_eq_false (h : Step site limits now s state t after) : s.isEnded = false := by
  cases h with
  | answer hphase => rw [isEnded, hphase]
  | discard hphase => rw [isEnded, hphase]
  | blank hphase => rw [isEnded, hphase]
  | refuse hphase => rw [isEnded, hphase]
  | accept hphase => rw [isEnded, hphase]
  | stop hphase => rw [isEnded, hphase]

/-! ## Settling -/

theorem settle_of_waits (h : s.Waits limits) : settle site limits now s state = (s, state) := by
  have hstep : step site limits now s state = none := step_eq_none_iff.mpr h
  rw [settle]
  split
  · rfl
  · next hsome => rw [hstep] at hsome; cases hsome

theorem settle_of_step (h : Step site limits now s state t after) :
    settle site limits now s state = settle site limits now t after := by
  rw [settle]
  split
  · next hnone => rw [h.step] at hnone; cases hnone
  · next t' after' hsome =>
    rw [h.step] at hsome
    cases hsome
    rfl

/-- To prove something of a settling session, prove it of a waiting one and carry it back over each
step. -/
theorem settle_induction (site : Site) (limits : Limits) (now : Moment)
    {motive : Session → Site.State → Prop}
    (waits : ∀ s state, s.Waits limits → motive s state)
    (step : ∀ s state t after, Step site limits now s state t after → motive t after →
      motive s state) (s : Session) (state : Site.State) : motive s state := by
  induction hn : s.size using Nat.strongRecOn generalizing s state with
  | ind n ih =>
    cases hstep : Session.step site limits now s state with
    | none => exact waits s state (step_eq_none_iff.mp hstep)
    | some next =>
      obtain ⟨t, after⟩ := next
      refine step s state t after (Step.of_step hstep) (ih t.size ?_ t after rfl)
      rw [← hn]
      exact step_size hstep

/-- A session that has settled waits. -/
theorem waits_settle (site : Site) (limits : Limits) (now : Moment) (s : Session)
    (state : Site.State) :
    (settle site limits now s state).1.Waits limits := by
  induction s, state using settle_induction site limits now with
  | waits s state h => rw [settle_of_waits h]; exact h
  | step s state t after h ih => rw [settle_of_step h]; exact ih

/-! ## What a step keeps -/

theorem stopping_await (limits : Limits) (now : Time) (s : Session) :
    (s.await limits now).stopping = s.stopping := by
  rw [await]
  split <;> rfl

theorem stopping_reply (limits : Limits) (now : Moment) (response : Response) (s : Session) :
    (s.reply limits now response).stopping = s.stopping := by
  rw [reply]
  dsimp only
  split
  · rfl
  · split
    · exact stopping_await limits now.clock _
    · rfl

theorem Step.stopping (h : Step site limits now s state t after) : t.stopping = s.stopping := by
  cases h with
  | answer hphase => exact stopping_reply limits now _ s
  | discard => rfl
  | blank => rfl
  | refuse => rfl
  | accept => rfl
  | stop => rfl

/-- A session whose deadline is not over, unless it has ended. -/
def InTime (now : Time) (s : Session) : Prop := s.isEnded = false → now ≤ s.deadline

theorem inTime_finish (how : Ending) (now : Time) (s : Session) : (s.finish how).InTime now := by
  intro hopen
  cases hopen

theorem inTime_await (limits : Limits) (now : Time) (s : Session) :
    (s.await limits now).InTime now := by
  rw [await, Clock.later?]
  cases Nat.decLt (now + limits.readTimeout) Clock.limit with
  | isTrue hlater =>
    rw [if_pos hlater]
    exact fun _ => Nat.le_add_right now limits.readTimeout
  | isFalse hlater =>
    rw [if_neg hlater]
    exact inTime_finish .noDeadline now s

theorem inTime_reply (limits : Limits) (now : Moment) (response : Response) (s : Session) :
    (s.reply limits now response).InTime now.clock := by
  rw [reply]
  dsimp only
  split
  · exact inTime_finish _ now.clock _
  · split
    · exact inTime_await limits now.clock _
    · exact inTime_finish .answered now.clock _

/-- No step takes a session past its deadline. -/
theorem Step.inTime (h : Step site limits now s state t after) (hs : s.InTime now.clock) :
    t.InTime now.clock := by
  have hopen := h.isEnded_eq_false
  cases h with
  | answer hphase => exact inTime_reply limits now _ s
  | discard => exact fun _ => hs hopen
  | blank => exact fun _ => hs hopen
  | refuse => exact fun _ => hs hopen
  | accept => exact fun _ => hs hopen
  | stop => exact fun _ => hs hopen

theorem inTime_settle (site : Site) (limits : Limits) (state : Site.State)
    (hs : s.InTime now.clock) :
    (settle site limits now s state).1.InTime now.clock := by
  induction s, state using settle_induction site limits now with
  | waits s state h => rw [settle_of_waits h]; exact hs
  | step s state t after h ih => rw [settle_of_step h]; exact ih (h.inTime hs)

theorem stopping_settle (site : Site) (limits : Limits) (now : Moment) (s : Session)
    (state : Site.State) :
    (settle site limits now s state).1.stopping = s.stopping := by
  induction s, state using settle_induction site limits now with
  | waits s state h => rw [settle_of_waits h]
  | step s state t after h ih => rw [settle_of_step h, ih, h.stopping]

/-! ## Requests that are answered -/

/-- The request that the next step answers. -/
def due? (s : Session) : Option Request :=
  match s.phase with
  | .body request 0 => some request
  | _ => none

theorem due?_eq_some_iff {request : Request} :
    s.due? = some request ↔ s.phase = .body request 0 := by
  rw [due?]
  constructor
  · intro h
    split at h
    · next first hphase => cases h; exact hphase
    · cases h
  · intro hphase
    rw [hphase]
    rfl

theorem due?_eq_none_of_head (hphase : s.phase = .head) : s.due? = none := by
  rw [due?, hphase]

theorem due?_eq_none_of_missing {request : Request} {missing : Nat}
    (hphase : s.phase = .body request missing) (hmissing : 0 < missing) : s.due? = none := by
  obtain ⟨k, rfl⟩ := Nat.exists_eq_succ_of_ne_zero (Nat.ne_of_gt hmissing)
  rw [due?, hphase]
  rfl

/-- The requests that go to the site while a session settles. -/
def answered (site : Site) (limits : Limits) (now : Moment) (s : Session) (state : Site.State) :
    List Request :=
  match _h : step site limits now s state with
  | none => []
  | some (t, after) => s.due?.toList ++ answered site limits now t after
termination_by s.size
decreasing_by exact step_size _h

theorem answered_of_waits (h : s.Waits limits) : answered site limits now s state = [] := by
  have hstep : step site limits now s state = none := step_eq_none_iff.mpr h
  rw [answered]
  split
  · rfl
  · next hsome => rw [hstep] at hsome; cases hsome

theorem answered_of_step (h : Step site limits now s state t after) :
    answered site limits now s state = s.due?.toList ++ answered site limits now t after := by
  rw [answered]
  split
  · next hnone => rw [h.step] at hnone; cases hnone
  · next t' after' hsome =>
    rw [h.step] at hsome
    cases hsome
    rfl

end ContentServer.Session
