import ContentServer.Proofs.Session.Complete

/-!
# Requests that have begun

A request has begun when a byte of it has arrived that is no line break.  Behind the complete
requests that a session has there is often one that has begun.  The session goes on reading it
(`Begun.step`), and `Fate` lists all that can become of it.  If the bytes that are still to come
make it complete, it is answered (`BegunBehind.answers`).
-/

namespace ContentServer.Session

variable {site : Site} {limits : Limits} {now : Moment} {s t : Session} {state after : Site.State}
variable {request : Request} {requests : List Request} {rest : Bytes}

/-! ## Requests that have begun -/

/-- Whether something of a request has arrived that is not answered yet. -/
def Begun (s : Session) : Prop :=
  match s.phase with
  | .ended _ => False
  | .body .. => True
  | .head => Request.blankLength s.buffer < s.buffer.length

theorem begun_of_body {request : Request} {missing : Nat}
    (hphase : s.phase = .body request missing) :
    s.Begun := by
  rw [Begun, hphase]
  trivial

theorem begun_of_head (hphase : s.phase = .head)
    (h : Request.blankLength s.buffer < s.buffer.length) : s.Begun := by
  rw [Begun, hphase]
  exact h

theorem Begun.blankLength_lt (h : s.Begun) (hphase : s.phase = .head) :
    Request.blankLength s.buffer < s.buffer.length := by
  rw [Begun, hphase] at h
  exact h

theorem Begun.isEnded_eq_false (h : s.Begun) : s.isEnded = false := by
  rw [Begun] at h
  rw [isEnded]
  split at h
  · cases h
  · next hphase => rw [hphase]
  · next hphase => rw [hphase]

theorem Begun.isIdle_eq_false (h : s.Begun) : s.isIdle = false := by
  rw [Bool.eq_false_iff, ne_eq, isIdle_iff]
  rintro ⟨hphase, hbuffer⟩
  have hlt := h.blankLength_lt hphase
  rw [hbuffer] at hlt
  exact Nat.not_lt_zero _ hlt

/-- A step goes on with the request that has begun, or answers it, or refuses its head. -/
theorem Begun.step (h : s.Begun) (hstep : Step site limits now s state t after) :
    t.Begun ∨ s.due? ≠ none ∨ ∃ cause, t.phase = .ended (.refused cause) := by
  cases hstep with
  | @answer request hphase =>
    refine Or.inr (Or.inl ?_)
    rw [due?, hphase]
    exact Option.some_ne_none request
  | discard hphase hmissing hbuffer => exact Or.inl (begun_of_body rfl)
  | blank hphase hblank =>
    refine Or.inl (begun_of_head hphase ?_)
    have hlt := h.blankLength_lt hphase
    dsimp only
    rw [Request.blankLength_drop, List.length_drop]
    exact Nat.sub_pos_of_lt hlt
  | @refuse cause hphase hblank hparse => exact Or.inr (Or.inr ⟨cause, rfl⟩)
  | accept hphase hblank hparse => exact Or.inl (begun_of_body rfl)
  | stop hphase hbuffer =>
    have hlt := h.blankLength_lt hphase
    rw [hbuffer] at hlt
    exact absurd hlt (Nat.not_lt_zero _)

theorem Begun.settle (h : s.Begun) (site : Site) (limits : Limits) (now : Moment)
    (state : Site.State) :
    (settle site limits now s state).1.Begun ∨ answered site limits now s state ≠ [] ∨
      ∃ cause, (settle site limits now s state).1.phase = .ended (.refused cause) := by
  induction s, state using settle_induction site limits now with
  | waits s state hwaits =>
    rw [settle_of_waits hwaits]
    exact Or.inl h
  | step s state t after hstep ih =>
    rw [settle_of_step hstep, answered_of_step hstep]
    rcases h.step hstep with hbegun | hdue | ⟨cause, hrefused⟩
    · refine (ih hbegun).imp_right (Or.imp_left fun hne => ?_)
      exact List.append_ne_nil_of_right_ne_nil _ hne
    · refine Or.inr (Or.inl (List.append_ne_nil_of_left_ne_nil ?_ _))
      rwa [ne_eq, Option.toList_eq_nil_iff]
    · have hended : t.Waits limits := waits_of_isEnded (by rw [isEnded, hrefused])
      rw [settle_of_waits hended]
      exact Or.inr (Or.inr ⟨cause, hrefused⟩)

theorem Begun.hangUp (h : s.Begun) : s.hangUp = s.finish (.failed .peerClosed) := by
  rw [Session.hangUp]
  rcases phase_of_open h.isEnded_eq_false with hphase | ⟨request, missing, hphase⟩
  · rw [hphase]
    dsimp only
    rw [if_neg (Nat.ne_of_lt (h.blankLength_lt hphase))]
  · rw [hphase]

theorem Begun.append (h : s.Begun) (data : Bytes) : (s.append data).Begun := by
  rcases phase_of_open h.isEnded_eq_false with hphase | ⟨request, missing, hphase⟩
  · refine begun_of_head hphase ?_
    have hlt := h.blankLength_lt hphase
    rw [append_buffer, Request.blankLength_append_of_lt hlt, List.length_append]
    exact Nat.lt_add_right data.length hlt
  · exact begun_of_body hphase

/-- An event leaves the request begun, unless time is up or the input ends. -/
theorem Begun.receive (h : s.Begun) (now : Time) (event : Event) :
    (s.receive now event).Begun ∨
      s.receive now event = s.finish (.failed .readTimeout) ∨
      event = .endOfInput ∧ s.receive now event = s.finish (.failed .peerClosed) := by
  have hopen := h.isEnded_eq_false
  rcases Nat.lt_or_ge s.deadline now with hlate | hin
  · exact Or.inr (Or.inl (receive_of_late hopen hlate event))
  · rw [receive_of_inTime hopen fun _ => hin]
    cases event with
    | bytes data => exact Or.inl (h.append data)
    | endOfInput => exact Or.inr (Or.inr ⟨rfl, h.hangUp⟩)
    | stop => exact Or.inl h
    | tick => exact Or.inl h

/-- What can become of the request that comes behind some others, when the session takes note of
some events. -/
inductive Fate (limits : Limits) (events : List (Moment × Event)) (before : Nat) (r : Report) :
    Prop where
  /-- It has been answered. -/
  | answered (h : before < r.answered.length)
  /-- More of it has to come, and the session waits for that. -/
  | waiting (hbegun : r.session.Begun) (hwaits : r.session.Waits limits)
  /-- A head has been refused. -/
  | refused {cause : RequestFault} (h : r.session.phase = .ended (.refused cause))
  /-- The client has ended its input. -/
  | cut (hevent : ∃ now, (now, .endOfInput) ∈ events)
      (h : r.session.phase = .ended (.failed .peerClosed))
  /-- The time for it is over. -/
  | late (h : r.session.RanOutOfTime)

variable {events : List (Moment × Event)} {before : Nat} {r : Report}

theorem Fate.imp {events' : List (Moment × Event)} {before' : Nat} {r' : Report}
    (h : Fate limits events before r) (hevents : events ⊆ events')
    (hanswered : before < r.answered.length → before' < r'.answered.length)
    (hsession : r'.session = r.session) : Fate limits events' before' r' := by
  cases h with
  | answered h => exact .answered (hanswered h)
  | waiting hbegun hwaits => exact .waiting (hsession ▸ hbegun) (hsession ▸ hwaits)
  | refused h => exact .refused (hsession ▸ h)
  | cut hevent h =>
    obtain ⟨now, hmem⟩ := hevent
    exact .cut ⟨now, hevents hmem⟩ (hsession ▸ h)
  | late h => exact .late (hsession ▸ h)

theorem Fate.prepend (h : Fate limits events before r) (requests : List (Moment × Request)) :
    Fate limits events (requests.length + before) (r.prepend requests) := by
  refine h.imp (List.Subset.refl events) (fun hlt => ?_) rfl
  rw [Report.prepend, List.length_append]
  exact Nat.add_lt_add_left hlt requests.length

/-- The fate of a request, if those that are read on have one. -/
theorem Begun.fate_resume_of (h : s.Begun)
    (hreport : ∀ t after, t.Begun → t.Waits limits →
      Fate limits events 0 (report site limits events t after)) (now : Moment)
    (state : Site.State) : Fate limits events 0 (resume site limits now events s state) := by
  rw [resume]
  rcases h.settle site limits now state with hbegun | hanswered | ⟨cause, hrefused⟩
  · have hwaits := waits_settle site limits now s state
    exact ((hreport _ _ hbegun hwaits).prepend _).imp (List.Subset.refl events)
      (Nat.lt_of_le_of_lt (Nat.zero_le _)) rfl
  · refine .answered (List.length_pos_iff.mpr ?_)
    refine List.append_ne_nil_of_left_ne_nil ?_ _
    simpa using hanswered
  · rw [report_of_isEnded (by rw [isEnded, hrefused])]
    exact .refused ((phase_forget _).trans hrefused)

theorem Begun.fate_report (h : s.Begun) (hwaits : s.Waits limits) (site : Site)
    (events : List (Moment × Event)) (state : Site.State) :
    Fate limits events 0 (report site limits events s state) := by
  induction events generalizing s state with
  | nil =>
    have hforget := forget_of_open h.isEnded_eq_false
    refine .waiting ?_ ?_
    · show s.forget.Begun
      rwa [hforget]
    · show s.forget.Waits limits
      rwa [hforget]
  | cons first events ih =>
    obtain ⟨now, event⟩ := first
    rw [report_cons]
    rcases h.receive now.clock event with hbegun | hlate | ⟨rfl, hcut⟩
    · have hfate := hbegun.fate_resume_of (fun t after ht hw => ih ht hw after) now state
      exact hfate.imp (List.subset_cons_self _ _) id rfl
    · have hended : (s.finish (.failed .readTimeout)).isEnded = true := rfl
      rw [hlate, resume_of_waits (waits_of_isEnded hended), report_of_isEnded hended]
      exact .late (Or.inl rfl)
    · have hended : (s.finish (.failed .peerClosed)).isEnded = true := rfl
      rw [hcut, resume_of_waits (waits_of_isEnded hended), report_of_isEnded hended]
      exact .cut ⟨now, List.mem_cons_self⟩ rfl

/-- A request that has begun is answered, unless it stays incomplete, is refused or comes late. -/
theorem Begun.fate (h : s.Begun) (site : Site) (limits : Limits) (now : Moment)
    (events : List (Moment × Event)) (state : Site.State) :
    Fate limits events 0 (resume site limits now events s state) :=
  h.fate_resume_of (fun _ after ht hwaits => ht.fate_report hwaits site events after) now state

/-! ## Requests that are complete in the end -/

/-- The bytes that arrive in some events. -/
def received (events : List (Moment × Event)) : Bytes :=
  events.flatMap fun (_, event) =>
    match event with
    | .bytes data => data
    | _ => []

theorem received_cons (now : Moment) (event : Event) (events : List (Moment × Event)) :
    received ((now, event) :: events) = received [(now, event)] ++ received events := by
  simp [received]

/-- What comes later may as well be there before an event that does not end the session. -/
theorem Holds.receive {event : Event}
    (h : (s.append (received ((now, event) :: events))).Holds limits requests rest)
    (hopen : (s.receive now.clock event).isEnded = false) :
    ((s.receive now.clock event).append (received events)).Holds limits requests rest := by
  have hs : s.isEnded = false := h.isEnded_eq_false
  rcases Nat.lt_or_ge s.deadline now.clock with hlate | hin
  · rw [receive_of_late hs hlate] at hopen
    cases hopen
  · rw [receive_of_inTime hs fun _ => hin] at hopen ⊢
    cases event with
    | bytes data =>
      show ((s.append data).append (received events)).Holds limits requests rest
      rw [append_append]
      exact h
    | endOfInput =>
      have hopen : s.hangUp.isEnded = false := hopen
      rcases hangUp_of_open hs with hend | hend <;> rw [hend] at hopen <;> cases hopen
    | stop => exact h
    | tick => exact h

/-- While a session settles, it answers the request that has begun, or that request goes on. -/
theorem Begun.settle_coming (h : s.Begun) {data : Bytes}
    (hcoming : (s.append data).Holds limits (request :: requests) rest) (site : Site)
    (now : Moment) (state : Site.State) :
    [request] <+: answered site limits now s state ∨
      answered site limits now s state = [] ∧ (Session.settle site limits now s state).1.Begun ∧
        ((Session.settle site limits now s state).1.append data).Holds limits
          (request :: requests) rest := by
  induction s, state using settle_induction site limits now with
  | waits s state hwaits =>
    rw [settle_of_waits hwaits, answered_of_waits hwaits]
    exact Or.inr ⟨rfl, h, hcoming⟩
  | step s state t after hstep ih =>
    rw [settle_of_step hstep, answered_of_step hstep]
    cases hdue : s.due? with
    | some first =>
      have hphase := due?_eq_some_iff.mp hdue
      obtain ⟨-, rfl, -⟩ := (holds_body_iff (s := s.append data) hphase).mp hcoming
      exact Or.inl (List.prefix_append _ _)
    | none =>
      have ht := (hcoming.step hstep hdue h.isIdle_eq_false).2
      rcases h.step hstep with hbegun | hsome | ⟨cause, hrefused⟩
      · exact ih hbegun ht
      · exact absurd hdue hsome
      · have hopen : t.isEnded = false := ht.isEnded_eq_false
        rw [isEnded, hrefused] at hopen
        cases hopen

theorem Begun.answers_resume_of (h : s.Begun)
    (hcoming : (s.append (received events)).Holds limits (request :: requests) rest)
    {later : List (Moment × Event)}
    (hreport : ∀ t after, t.Begun → t.Waits limits →
      (t.append (received events)).Holds limits (request :: requests) rest →
        (report site limits later t after).Answers [request]) (now : Moment)
    (state : Site.State) : (resume site limits now later s state).Answers [request] := by
  rw [resume]
  rcases h.settle_coming hcoming site now state with hanswered | ⟨hnone, hbegun, ht⟩
  · refine Or.inl (hanswered.trans ?_)
    rw [Report.prepend, List.map_append, List.map_map, Function.comp_def, List.map_id']
    exact List.prefix_append _ _
  · rw [hnone]
    exact hreport _ _ hbegun (waits_settle site limits now s state) ht

theorem Begun.answers_report (h : s.Begun) (hwaits : s.Waits limits)
    (hcoming : (s.append (received events)).Holds limits (request :: requests) rest)
    (hopen : ∀ event ∈ events, event.2 ≠ .endOfInput) (later : List (Moment × Event)) (site : Site)
    (state : Site.State) : (report site limits (events ++ later) s state).Answers [request] := by
  induction events generalizing s state with
  | nil =>
    rw [show received [] = [] from rfl, append_nil] at hcoming
    exact absurd hwaits hcoming.not_waits
  | cons first events ih =>
    obtain ⟨now, event⟩ := first
    rw [List.cons_append, report_cons]
    rcases h.receive now.clock event with hbegun | hlate | ⟨rfl, -⟩
    · have hrest := fun event h => hopen event (List.mem_cons_of_mem _ h)
      exact hbegun.answers_resume_of (hcoming.receive hbegun.isEnded_eq_false)
        (fun t after ht hw hc => ih ht hw hc hrest after) now state
    · rw [hlate]
      exact answers_of_ranOutOfTime (Or.inl rfl) [request] now (events ++ later) state
    · exact absurd rfl (hopen _ List.mem_cons_self)

/-! ## The request behind the complete ones -/

/-- Behind some complete requests, another one has begun. -/
def BegunBehind (limits : Limits) (s : Session) (requests : List Request) : Prop :=
  requests = [] ∧ s.Begun ∨
    ∃ part, s.Holds limits requests part ∧ Request.blankLength part < part.length

theorem BegunBehind.begun (h : s.BegunBehind limits []) : s.Begun := by
  rcases h with ⟨-, h⟩ | ⟨part, h, hpart⟩
  · exact h
  · rcases phase_of_open h.isEnded_eq_false with hphase | ⟨request, missing, hphase⟩
    · rw [← ((holds_head_iff hphase).mp h).eq_rest] at hpart
      exact begun_of_head hphase hpart
    · exact begun_of_body hphase

/-- The answer to the first complete request leaves the one behind the others begun. -/
theorem BegunBehind.resume_cons (h : s.BegunBehind limits (request :: requests)) (site : Site)
    (now : Moment) (events : List (Moment × Event)) (state : Site.State)
    (hkeep : request.keepAlive = true) :
    ∃ t after, resume site limits now events s state
        = (resume site limits now events t after).prepend [(now, request)] ∧
      (t.RanOutOfTime ∨ t.BegunBehind limits requests ∧ Leaves limits request s t) := by
  obtain ⟨part, hs, hpart⟩ : ∃ part, s.Holds limits (request :: requests) part ∧
      Request.blankLength part < part.length := by
    rcases h with ⟨hnil, -⟩ | h
    · cases hnil
    · exact h
  obtain ⟨t, after, hresume, hleft⟩ := hs.resume_cons site now events state
  refine ⟨t, after, hresume, (hleft hkeep).imp_right fun hleft => ?_⟩
  exact ⟨Or.inr ⟨part, hleft.holds hs, hpart⟩, hleft⟩

/-- If the requests before it keep the connection open, the session gets to the one behind them. -/
theorem BegunBehind.fate (h : s.BegunBehind limits requests)
    (hkeep : ∀ request ∈ requests, request.keepAlive = true) (site : Site) (now : Moment)
    (events : List (Moment × Event)) (state : Site.State) :
    Fate limits events requests.length (resume site limits now events s state) := by
  induction requests generalizing s state with
  | nil => exact h.begun.fate site limits now events state
  | cons request requests ih =>
    have hrest := fun request h => hkeep request (List.mem_cons_of_mem _ h)
    obtain ⟨t, after, hresume, hlate | ⟨ht, -⟩⟩ :=
      h.resume_cons site now events state (hkeep request List.mem_cons_self)
    · rw [hresume]
      exact .late (ranOutOfTime_resume hlate now events after)
    · rw [hresume, List.length_cons, Nat.add_comm]
      exact (ih ht hrest after).prepend [(now, request)]

/-- If the bytes of some events make that request complete, it is answered. -/
theorem BegunBehind.answers (h : s.BegunBehind limits requests)
    (hkeep : ∀ request ∈ requests, request.keepAlive = true)
    (hcoming : (s.append (received events)).Holds limits (requests ++ [request]) rest)
    (hopen : ∀ event ∈ events, event.2 ≠ .endOfInput) (later : List (Moment × Event)) (site : Site)
    (now : Moment) (state : Site.State) :
    (resume site limits now (events ++ later) s state).Answers (requests ++ [request]) := by
  induction requests generalizing s state with
  | nil =>
    exact h.begun.answers_resume_of hcoming
      (fun t after ht hw hc => ht.answers_report hw hc hopen later site after) now state
  | cons first requests ih =>
    have hrest := fun request h => hkeep request (List.mem_cons_of_mem _ h)
    obtain ⟨t, after, hresume, hlate | ⟨ht, hleft⟩⟩ :=
      h.resume_cons site now (events ++ later) state (hkeep first List.mem_cons_self)
    · rw [hresume]
      exact (answers_of_ranOutOfTime hlate _ now _ after).prepend now first
    · rw [hresume]
      exact (ih ht hrest (hleft _ _ _ hcoming) after).prepend now first

end ContentServer.Session
