import ContentServer.Proofs.Http.Heads
import ContentServer.Proofs.Session.Begun

/-!
# Progress of a session

A session does not spin.  Whatever bytes a client sends and however they are cut into reads, the
session takes a bounded number of steps, and when the client ends its input the session ends.

There are two accounts of this.

* Every step makes the session smaller (`step_size`), and only bytes that arrive make it larger,
  each by three.  So three steps for each byte and one more are all that it can take
  (`effortAll_add_size_le`).
* A request costs at least 18 bytes, as many as `GET / HTTP/1.1` and its empty line have.  They
  leave the buffer when the head is accepted.  What a session has spent on requests, together with
  what is still in its buffer, is never more than what has arrived (`spent_handleAll_le`).

Steps take bytes from the front of the buffer, never more than there are, and of a body never more
than are missing (`Step.takes`).
-/

namespace ContentServer

/-! ## The shortest head -/

theorem Bytes.length_le_ofText (cs : List Char) :
    cs.length ≤ (Bytes.ofText (String.ofList cs)).length := by
  rw [Bytes.ofText_ofList]
  induction cs with
  | nil => exact Nat.le_refl 0
  | cons c cs ih =>
    have hc : 0 < (String.utf8EncodeChar c).length := by
      rw [String.length_utf8EncodeChar]
      exact c.utf8Size_pos
    rw [List.length_cons, List.flatMap_cons, List.length_append]
    omega

/-- No legal head is shorter than `GET / HTTP/1.1` with its empty line. -/
theorem Head.Legal.eighteen_le_length {maxBody : Nat} {h : Head} (hlegal : h.Legal maxBody) :
    18 ≤ h.bytes.length := by
  have hmethod : 3 ≤ h.method.token.toList.length := by cases h.method <;> decide
  have hversion : 8 ≤ h.version.token.toList.length := by cases h.version <;> decide
  have htarget : 1 ≤ h.target.length := List.length_pos_iff.mpr hlegal.target_ne_nil
  have htext := Bytes.length_le_ofText h.text
  have hend : Request.headEnd.length = 4 := rfl
  rw [Head.text, Head.requestLine] at htext
  simp only [List.length_append, List.length_cons] at htext
  rw [h.length_bytes, Head.text, Head.requestLine]
  omega

/-- A request that is accepted takes at least 18 bytes behind the line breaks, and at most what has
arrived. -/
theorem Request.parse_takes {maxBody : Nat} {buffer : Bytes} {r : Request} {n : Nat}
    (h : parse maxBody buffer = .ok (some (r, n))) :
    blankLength buffer + 18 ≤ n ∧ n ≤ buffer.length := by
  obtain ⟨hn, -⟩ := length_headIn h
  obtain ⟨-, hlegal, -⟩ := headIn_spec h
  refine ⟨?_, (parse_consumed h).2⟩
  rw [hn]
  exact Nat.add_le_add_left hlegal.eighteen_le_length _

namespace Session

variable {site : Site} {limits : Limits} {now : Moment} {s t : Session} {state after : Site.State}

/-! ## What a step takes -/

/-- One session follows another when some bytes have been taken from the front of the buffer. -/
structure Takes (s t : Session) (taken : Bytes) : Prop where
  buffer : s.buffer = taken ++ t.buffer
  /-- A head that is accepted has 18 bytes or more. -/
  head {request : Request} {missing : Nat} (hs : s.phase = .head)
    (ht : t.phase = .body request missing) : 18 ≤ taken.length ∧ missing = request.contentLength
  /-- What is taken of a body is no longer missing, and it was missing before. -/
  body {request other : Request} {missing left : Nat} (hs : s.phase = .body request missing)
    (ht : t.phase = .body other left) : other = request ∧ missing = taken.length + left

theorem phase_reply_ne_body (limits : Limits) (now : Moment) (response : Response) (s : Session)
    (request : Request) (missing : Nat) :
    (s.reply limits now response).phase ≠ .body request missing := by
  intro hphase
  simp only [reply] at hphase
  split at hphase
  · cases hphase
  · split at hphase
    · rw [await] at hphase
      split at hphase <;> cases hphase
    · cases hphase

theorem buffer_reply (limits : Limits) (now : Moment) (response : Response) (s : Session) :
    (s.reply limits now response).buffer = s.buffer := by
  simp only [reply]
  split
  · rfl
  · split
    · exact buffer_await limits now.clock _
    · rfl

/-- Every step takes bytes from the front of the buffer, perhaps none. -/
theorem Step.takes (h : Step site limits now s state t after) : ∃ taken, Takes s t taken := by
  cases h with
  | @answer request hphase =>
    refine ⟨[], (buffer_reply limits now _ s).symm, fun hs => ?_, fun _ ht => ?_⟩
    · cases hphase.symm.trans hs
    · exact absurd ht (phase_reply_ne_body limits now _ s _ _)
  | @discard request missing hphase hmissing hbuffer =>
    refine ⟨s.buffer.take missing, (List.take_append_drop missing s.buffer).symm, fun hs => ?_,
      fun hs ht => ?_⟩
    · cases hphase.symm.trans hs
    · cases hphase.symm.trans hs
      cases ht
      rw [List.length_take]
      exact ⟨rfl, by omega⟩
  | blank hphase hblank =>
    refine ⟨_, (List.take_append_drop (Request.blankLength s.buffer) s.buffer).symm,
      fun _ ht => ?_, fun hs => ?_⟩
    · cases hphase.symm.trans ht
    · cases hphase.symm.trans hs
  | @refuse cause hphase hblank hparse =>
    refine ⟨[], rfl, fun _ ht => ?_, fun _ ht => ?_⟩ <;> cases ht
  | @accept request n hphase hblank hparse =>
    obtain ⟨hleast, hmost⟩ := Request.parse_takes hparse
    refine ⟨s.buffer.take n, (List.take_append_drop n s.buffer).symm, fun _ ht => ?_, fun hs => ?_⟩
    · cases ht
      rw [List.length_take_of_le hmost]
      exact ⟨by omega, rfl⟩
    · cases hphase.symm.trans hs
  | stop hphase hbuffer hstopping =>
    refine ⟨[], rfl, fun _ ht => ?_, fun _ ht => ?_⟩ <;> cases ht

/-! ## The number of steps -/

/-- The number of steps that a session takes until it waits. -/
def effort (site : Site) (limits : Limits) (now : Moment) (s : Session) (state : Site.State) :
    Nat :=
  match _h : step site limits now s state with
  | none => 0
  | some (t, after) => effort site limits now t after + 1
termination_by s.size
decreasing_by exact step_size _h

theorem effort_of_waits (h : s.Waits limits) : effort site limits now s state = 0 := by
  have hstep : step site limits now s state = none := step_eq_none_iff.mpr h
  rw [effort]
  split
  · rfl
  · next hsome => rw [hstep] at hsome; cases hsome

theorem effort_of_step (h : Step site limits now s state t after) :
    effort site limits now s state = effort site limits now t after + 1 := by
  rw [effort]
  split
  · next hnone => rw [h.step] at hnone; cases hnone
  · next t' after' hsome =>
    rw [h.step] at hsome
    cases hsome
    rfl

/-- What steps take away from the size of a session is at least their number. -/
theorem effort_add_size_le (site : Site) (limits : Limits) (now : Moment) (s : Session)
    (state : Site.State) :
    effort site limits now s state + (settle site limits now s state).1.size ≤ s.size := by
  induction s, state using settle_induction site limits now with
  | waits s state h => rw [effort_of_waits h, settle_of_waits h, Nat.zero_add]
  | step s state t after h ih =>
    have hsmaller := step_size h.step
    rw [effort_of_step h, settle_of_step h]
    omega

/-- The number of steps that a session takes because of a row of events. -/
def effortAll (site : Site) (limits : Limits) :
    List (Moment × Event) → Session → Site.State → Nat
  | [], _, _ => 0
  | (now, event) :: events, s, state =>
    let r := s.handle site limits now event state
    effort site limits now (s.receive now.clock event) state + effortAll site limits events r.1 r.2

/-! ## What an event brings -/

/-- Between two steps a session only gets the bytes that arrive, and goes on as it was or ends. -/
theorem receive_cases (now : Time) (event : Event) (s : Session) :
    s.receive now event = s ∨ (∃ how, s.receive now event = s.finish how) ∨
      s.receive now event = { s with stopping := true } ∨
        s.receive now event = s.append (received [(⟨now, 0⟩, event)]) := by
  cases hended : s.isEnded with
  | true => exact Or.inl (receive_of_isEnded hended now event)
  | false =>
    rcases Nat.lt_or_ge s.deadline now with hlate | hin
    · exact Or.inr (Or.inl ⟨.failed .readTimeout, receive_of_late hended hlate event⟩)
    · rw [receive_of_inTime hended fun _ => hin]
      cases event with
      | bytes data => exact Or.inr (Or.inr (Or.inr (by simp [received, append])))
      | endOfInput =>
        rcases hangUp_of_open hended with h | h
        · exact Or.inr (Or.inl ⟨_, h⟩)
        · exact Or.inr (Or.inl ⟨_, h⟩)
      | stop => exact Or.inr (Or.inr (Or.inl rfl))
      | tick => exact Or.inl rfl

theorem size_receive_le (now : Moment) (event : Event) (s : Session) :
    (s.receive now.clock event).size ≤ s.size + 3 * (received [(now, event)]).length := by
  have hsame : received [(now, event)] = received [(⟨now.clock, 0⟩, event)] := rfl
  rw [hsame]
  rcases receive_cases now.clock event s with h | ⟨how, h⟩ | h | h <;> rw [h]
  · exact Nat.le_add_right _ _
  · simp only [size, finish, Phase.rank]
    omega
  · exact Nat.le_add_right _ _
  · simp only [size, append, List.length_append]
    omega

/-- Three steps for each byte, and as many more as the session is large, are all that it takes. -/
theorem effortAll_add_size_le (site : Site) (limits : Limits) (events : List (Moment × Event))
    (s : Session) (state : Site.State) :
    effortAll site limits events s state + (handleAll site limits events s state).1.size
      ≤ s.size + 3 * (received events).length := by
  induction events generalizing s state with
  | nil =>
    rw [effortAll, handleAll, Nat.zero_add]
    exact Nat.le_add_right _ _
  | cons first events ih =>
    obtain ⟨now, event⟩ := first
    have hbrought := size_receive_le now event s
    have hsteps := effort_add_size_le site limits now (s.receive now.clock event) state
    have hrest := ih (s.handle site limits now event state).1
      (s.handle site limits now event state).2
    rw [effortAll, handleAll, received_cons, List.length_append]
    dsimp only [handle] at hrest ⊢
    omega

/-! ## What a request costs -/

/-- What a phase has cost on its way to an answer. -/
def Phase.cost : Phase → Nat
  | .body .. => 18
  | _ => 0

/-- What a session has spent on requests, with what it still has. -/
def spent (s : Session) : Nat := 18 * s.served + s.phase.cost + s.buffer.length

theorem spent_reply_le (limits : Limits) (now : Moment) {response : Response}
    (hwritten : ∃ n, response.write.2 = .ok n) (s : Session) :
    (s.reply limits now response).spent ≤ 18 * (s.served + 1) + s.buffer.length := by
  have hphase : (s.reply limits now response).phase.cost = 0 := by
    cases hphase : (s.reply limits now response).phase with
    | head => rfl
    | ended how => rfl
    | body request missing => exact absurd hphase (phase_reply_ne_body limits now response s _ _)
  rw [spent, served_reply hwritten, hphase, buffer_reply, Nat.add_zero]

/-- No step spends what the session does not have. -/
theorem Step.spent_le (h : Step site limits now s state t after) : t.spent ≤ s.spent := by
  cases h with
  | @answer request hphase =>
    have hanswer := site.answerAt_answer s.served now request state
    have hreply := spent_reply_le limits now hanswer.written s
    rw [spent.eq_1 s, hphase, Phase.cost]
    omega
  | discard hphase hmissing hbuffer =>
    rw [spent, spent, hphase, List.length_drop]
    dsimp only [Phase.cost]
    omega
  | blank hphase hblank =>
    rw [spent, spent, List.length_drop]
    dsimp only
    omega
  | refuse hphase hblank hparse =>
    rw [spent, spent, hphase]
    exact Nat.le_refl _
  | accept hphase hblank hparse =>
    have htakes := Request.parse_takes hparse
    rw [spent, spent, hphase, List.length_drop]
    dsimp only [Phase.cost]
    omega
  | stop hphase hbuffer hstopping =>
    rw [spent, spent, hphase]
    exact Nat.le_refl _

theorem spent_settle_le (site : Site) (limits : Limits) (now : Moment) (s : Session)
    (state : Site.State) : (settle site limits now s state).1.spent ≤ s.spent := by
  induction s, state using settle_induction site limits now with
  | waits s state h => rw [settle_of_waits h]
  | step s state t after h ih =>
    rw [settle_of_step h]
    exact ih.trans h.spent_le

theorem spent_receive_le (now : Moment) (event : Event) (s : Session) :
    (s.receive now.clock event).spent ≤ s.spent + (received [(now, event)]).length := by
  have hsame : received [(now, event)] = received [(⟨now.clock, 0⟩, event)] := rfl
  rw [hsame]
  rcases receive_cases now.clock event s with h | ⟨how, h⟩ | h | h <;> rw [h]
  · exact Nat.le_add_right _ _
  · simp only [spent, finish, Phase.cost]
    omega
  · exact Nat.le_add_right _ _
  · simp only [spent, append, List.length_append]
    omega

/-- What is spent has arrived. -/
theorem spent_handleAll_le (site : Site) (limits : Limits) (events : List (Moment × Event))
    (s : Session) (state : Site.State) :
    (handleAll site limits events s state).1.spent ≤ s.spent + (received events).length := by
  induction events generalizing s state with
  | nil => exact Nat.le_add_right _ _
  | cons first events ih =>
    obtain ⟨now, event⟩ := first
    have hbrought := spent_receive_le now event s
    have hsettled := spent_settle_le site limits now (s.receive now.clock event) state
    have hrest := ih (s.handle site limits now event state).1
      (s.handle site limits now event state).2
    rw [handleAll, received_cons, List.length_append]
    dsimp only [handle] at hrest ⊢
    omega

theorem size_start_le (limits : Limits) (begin : Time) : (start limits begin).size ≤ 1 := by
  have hrank := rank_await_le limits begin {}
  have hbuffer : (start limits begin).buffer = [] := buffer_await limits begin {}
  rw [size, hbuffer, List.length_nil]
  exact (Nat.zero_add _).trans_le hrank

theorem spent_start (limits : Limits) (begin : Time) : (start limits begin).spent = 0 := by
  rw [start, await]
  split <;> rfl

/-! ## The end of the input -/

theorem isEnded_receive_endOfInput (now : Time) (s : Session) :
    (s.receive now .endOfInput).isEnded = true := by
  cases hended : s.isEnded with
  | true => rwa [receive_of_isEnded hended]
  | false =>
    rcases Nat.lt_or_ge s.deadline now with hlate | hin
    · rw [receive_of_late hended hlate]
      rfl
    · rw [receive_of_inTime hended fun _ => hin]
      show s.hangUp.isEnded = true
      rcases hangUp_of_open hended with h | h <;> rw [h] <;> rfl

/-- A session has ended when the client has ended its input. -/
theorem isEnded_endOfInput (site : Site) (limits : Limits) (events : List (Moment × Event))
    (last : Moment) (s : Session) (state : Site.State) :
    (handleAll site limits (events ++ [(last, .endOfInput)]) s state).1.isEnded = true := by
  induction events generalizing s state with
  | nil =>
    have hended := isEnded_receive_endOfInput last.clock s
    show (settle site limits last (s.receive last.clock .endOfInput) state).1.isEnded = true
    rw [settle_of_waits (waits_of_isEnded hended)]
    exact hended
  | cons first events ih => exact ih _ _

/-- When the client has ended its input, the session has ended.  It has taken at most three steps
for each byte that arrived, and one more, and it has answered no more requests than there are 18
bytes each for.  Every step takes bytes from the front of the buffer: at least 18 with a head that
is accepted, and of a body only what is missing. -/
theorem ends_with_progress (site : Site) (limits : Limits) (begin : Time)
    (events : List (Moment × Event)) (last : Moment) (state : Site.State) :
    let all := events ++ [(last, .endOfInput)]
    let arrived := (received events).length
    let r := handleAll site limits all (start limits begin) state
    r.1.isEnded = true ∧
    effortAll site limits all (start limits begin) state ≤ 3 * arrived + 1 ∧
    r.1.served * 18 ≤ arrived ∧
    (∀ (now : Moment) (s t : Session) (before after : Site.State),
      Step site limits now s before t after → t.size < s.size ∧ ∃ taken, Takes s t taken) ∧
    ∀ (buffer : Bytes) (request : Request) (n : Nat),
      Request.parse limits.maxBody buffer = .ok (some (request, n)) →
        Request.blankLength buffer + 18 ≤ n ∧ n ≤ buffer.length := by
  intro all arrived r
  have hall : (received all).length = arrived := by
    show (received (events ++ [(last, .endOfInput)])).length = (received events).length
    simp [received]
  have hsteps := effortAll_add_size_le site limits all (start limits begin) state
  have hspent := spent_handleAll_le site limits all (start limits begin) state
  have hsize := size_start_le limits begin
  rw [hall] at hsteps hspent
  refine ⟨isEnded_endOfInput site limits events last (start limits begin) state, by omega, ?_,
    fun now s t before after h => ⟨step_size h.step, h.takes⟩,
    fun buffer request n => Request.parse_takes⟩
  rw [spent_start, spent] at hspent
  show (handleAll site limits all (start limits begin) state).1.served * 18 ≤ arrived
  omega

end Session

end ContentServer
