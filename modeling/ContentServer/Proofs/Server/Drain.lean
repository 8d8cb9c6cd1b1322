import ContentServer.Server.Drain
import Mathlib.Logic.Relation

/-!
# Draining a server

The host of a server may only stop when no session is left.  It does not look at the sessions.  It
waits for a channel to close, and it trusts that the channel closes late enough.

`Accounted` says why it may.  The counter of active sessions counts the sessions that serve, and
the senders of the channel are one for the listener until it ends, one for the host until it has
seen that, and one for each session until it finishes.  Every step keeps this
(`Step.accounted`).  So when no sender is left the listener has ended and all sessions have
finished, and no session starts after that (`Run.ended`).
-/

namespace ContentServer.Drain

variable {s t : State}

/-! ## Who has a sender -/

/-- Whether a session is on the counter. -/
def Stage.isCounted : Stage → Bool
  | .serving => true
  | .uncounted | .finished => false

/-- Whether a session has a sender. -/
def Stage.hasSender : Stage → Bool
  | .serving | .uncounted => true
  | .finished => false

/-- Whether the host has a sender. -/
def Host.hasSender : Host → Bool
  | .running | .joining => true
  | .draining | .drained | .timedOut => false

/-- The number of sessions that are on the counter. -/
def State.counted (s : State) : Nat := s.sessions.countP Stage.isCounted

/-- The number of sessions that have not finished. -/
def State.unfinished (s : State) : Nat := s.sessions.countP Stage.hasSender

theorem counted_le_unfinished (s : State) : s.counted ≤ s.unfinished := by
  refine List.countP_mono_left fun stage _ hcounted => ?_
  cases stage with
  | serving => rfl
  | uncounted => cases hcounted
  | finished => cases hcounted

theorem unfinished_eq_zero_iff : s.unfinished = 0 ↔ ∀ stage ∈ s.sessions, stage = .finished := by
  rw [State.unfinished, List.countP_eq_zero]
  refine forall₂_congr fun stage _ => ?_
  cases stage <;> simp [Stage.hasSender]

/-- When one session goes from a stage to another one, only this session is counted differently. -/
theorem countP_set (p : Stage → Bool) {sessions : List Stage} {i : Nat} {stage : Stage}
    (h : sessions[i]? = some stage) (next : Stage) :
    (sessions.set i next).countP p + (p stage).toNat = sessions.countP p + (p next).toNat := by
  induction sessions generalizing i with
  | nil => simp at h
  | cons first sessions ih =>
    cases i with
    | zero =>
      obtain rfl : first = stage := by simpa using h
      simp only [List.set_cons_zero, List.countP_cons]
      cases p first <;> cases p next <;> simp
    | succ i =>
      have hrest : sessions[i]? = some stage := by simpa using h
      have := ih hrest
      simp only [List.set_cons_succ, List.countP_cons]
      omega

/-! ## What every step keeps -/

/-- The counter and the channel agree with the parties, and the host has come no further than the
others let it. -/
structure Accounted (s : State) : Prop where
  active : s.active = s.counted
  senders : s.senders = s.listening.toNat + s.host.hasSender.toNat + s.unfinished
  /-- The host drops its sender only after the listener has ended. -/
  joined : s.host.hasSender = false → s.listening = false
  drained : s.host = .drained → s.unfinished = 0

theorem accounted_start : Accounted {} where
  active := rfl
  senders := rfl
  joined := by intro h; cases h
  drained := by intro h; cases h

/-- A session that has a sender keeps the host waiting, and it may go on to another stage if the
counter and the channel go with it. -/
theorem Accounted.move (hs : Accounted s) {i : Nat} {stage next : Stage}
    (h : s.sessions[i]? = some stage) (hstage : stage.hasSender = true) {active senders : Int}
    (hactive : active + stage.isCounted.toNat = s.active + next.isCounted.toNat)
    (hsenders : senders + 1 = s.senders + next.hasSender.toNat) :
    Accounted { s with sessions := s.sessions.set i next, active, senders } := by
  have hcounted := countP_set Stage.isCounted h next
  have hunfinished := countP_set Stage.hasSender h next
  rw [hstage, Bool.toNat_true] at hunfinished
  constructor
  · have := hs.active
    simp only [State.counted] at this ⊢
    omega
  · have := hs.senders
    simp only [State.unfinished] at this ⊢
    omega
  · exact hs.joined
  · intro hdrained
    have hfinished := unfinished_eq_zero_iff.mp (hs.drained hdrained) stage (List.mem_of_getElem? h)
    subst hfinished
    cases hstage

theorem Step.accounted (h : Step s t) (hs : Accounted s) : Accounted t := by
  have hended : s.host.hasSender = false → s.listening = false := hs.joined
  have hsenders := hs.senders
  cases h with
  | signal => exact ⟨hs.active, hs.senders, hs.joined, hs.drained⟩
  | accept hlistening =>
    have hcounted : (s.sessions ++ [Stage.serving]).countP Stage.isCounted = s.counted + 1 :=
      List.countP_append
    have hunfinished : (s.sessions ++ [Stage.serving]).countP Stage.hasSender = s.unfinished + 1 :=
      List.countP_append
    constructor
    · simp only [State.counted, hcounted, hs.active]
      rfl
    · simp only [State.unfinished, hunfinished, hsenders]
      omega
    · exact hs.joined
    · intro hdrained
      have hhost : s.host = .drained := hdrained
      rw [hhost] at hended
      rw [hended rfl] at hlistening
      cases hlistening
  | endListener hlistening hsignalled =>
    refine ⟨hs.active, ?_, fun _ => rfl, hs.drained⟩
    rw [hsenders, hlistening]
    simp only [State.unfinished, Bool.toNat_true, Bool.toNat_false]
    omega
  | uncount i hserving =>
    exact hs.move hserving rfl (by simp [Stage.isCounted]) (by simp [Stage.hasSender])
  | finish i huncounted =>
    exact hs.move huncounted rfl (by simp [Stage.isCounted]) (by simp [Stage.hasSender])
  | seeSignal hhost hsignalled =>
    rw [hhost] at hsenders
    refine ⟨hs.active, hsenders, ?_, ?_⟩
    · intro hno
      cases hno
    · intro hdrained
      cases hdrained
  | join hhost hlistening =>
    rw [hhost, hlistening] at hsenders
    refine ⟨hs.active, ?_, fun _ => hlistening, ?_⟩
    · rw [hsenders, hlistening]
      simp only [Host.hasSender, Bool.toNat_true, Bool.toNat_false, State.unfinished]
      omega
    · intro hdrained
      cases hdrained
  | close hhost hnone =>
    rw [hhost] at hsenders hended
    refine ⟨hs.active, hsenders, hended, fun _ => ?_⟩
    rw [hnone, hended rfl] at hsenders
    simp only [Host.hasSender, Bool.toNat_false, State.unfinished] at hsenders ⊢
    omega
  | giveUp hhost =>
    rw [hhost] at hsenders hended
    refine ⟨hs.active, hsenders, hended, ?_⟩
    intro hdrained
    cases hdrained

theorem Reachable.accounted (h : Reachable s) : Accounted s := by
  induction h with
  | start => exact accounted_start
  | step hs hstep ih => exact hstep.accounted ih

/-! ## After the listener has ended -/

/-- A row of steps. -/
abbrev Run : State → State → Prop := Relation.ReflTransGen Step

/-- A listener that has ended stays so and starts no session. -/
theorem Step.ended (h : Step s t) (hended : s.listening = false) :
    t.listening = false ∧ t.sessions.length = s.sessions.length := by
  cases h with
  | signal => exact ⟨hended, rfl⟩
  | accept hlistening =>
    rw [hended] at hlistening
    cases hlistening
  | endListener => exact ⟨rfl, rfl⟩
  | uncount i => exact ⟨hended, List.length_set⟩
  | finish i => exact ⟨hended, List.length_set⟩
  | seeSignal => exact ⟨hended, rfl⟩
  | join => exact ⟨hended, rfl⟩
  | close => exact ⟨hended, rfl⟩
  | giveUp => exact ⟨hended, rfl⟩

theorem Run.ended (h : Run s t) (hended : s.listening = false) :
    t.listening = false ∧ t.sessions.length = s.sessions.length := by
  induction h with
  | refl => exact ⟨hended, rfl⟩
  | tail hrun hstep ih =>
    obtain ⟨hlistening, hlength⟩ := ih
    obtain ⟨hlistening', hlength'⟩ := hstep.ended hlistening
    exact ⟨hlistening', hlength'.trans hlength⟩

/-! ## What the host may trust -/

/-- In every state that the parties can reach, the counter is the number of sessions that serve and
thus never below zero.  Once the listener has ended no session starts.  While the host waits, the
channel is closed exactly if all sessions have finished, and if the host goes on because it has
closed, all sessions have finished and none is active. -/
theorem drains_every_session (h : Reachable s) :
    s.active = s.sessions.countP (· = .serving) ∧ 0 ≤ s.active ∧
    (s.listening = false → ∀ t, Run s t → t.sessions.length = s.sessions.length) ∧
    (s.host = .draining → (s.senders = 0 ↔ ∀ stage ∈ s.sessions, stage = .finished)) ∧
    (s.host = .drained → (∀ stage ∈ s.sessions, stage = .finished) ∧ s.active = 0) := by
  have hs := h.accounted
  have hcounted : s.counted = s.sessions.countP (· = .serving) := by
    refine List.countP_congr fun stage _ => ?_
    cases stage <;> simp [Stage.isCounted]
  refine ⟨?_, ?_, fun hended t hrun => (hrun.ended hended).2, fun hhost => ?_, fun hhost => ?_⟩
  · rw [hs.active, hcounted]
  · rw [hs.active]
    exact Int.natCast_nonneg _
  · have hended := hs.joined (by rw [hhost]; rfl)
    rw [hs.senders, hended, hhost, ← unfinished_eq_zero_iff]
    simp [Host.hasSender]
  · have hfinished := hs.drained hhost
    have hle := counted_le_unfinished s
    refine ⟨unfinished_eq_zero_iff.mp hfinished, ?_⟩
    rw [hs.active]
    omega

/-- Two sessions, of which one starts after the stop signal and finishes after the host has begun to
wait. -/
theorem drains_a_late_session :
    let s : State := { signalled := true, listening := false, sessions := [.finished, .finished],
                       active := 0, senders := 0, host := .drained }
    Reachable s ∧ (∀ stage ∈ s.sessions, stage = .finished) ∧ s.active = 0 := by
  intro s
  have hreach : Reachable s :=
    Reachable.start
      |>.step (.accept rfl)
      |>.step .signal
      |>.step (.seeSignal rfl rfl)
      |>.step (.accept rfl)
      |>.step (.uncount 0 rfl)
      |>.step (.endListener rfl rfl)
      |>.step (.join rfl rfl)
      |>.step (.uncount 1 rfl)
      |>.step (.finish 1 rfl)
      |>.step (.finish 0 rfl)
      |>.step (.close rfl rfl)
  obtain ⟨-, -, -, -, hdrained⟩ := drains_every_session hreach
  exact ⟨hreach, hdrained rfl⟩

end ContentServer.Drain
