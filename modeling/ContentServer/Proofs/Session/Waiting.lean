import ContentServer.Proofs.Session.Progress
import ContentServer.Proofs.Session.Remainders
import ContentServer.Session.Status

/-!
# Sessions that wait

A client may send as much as it likes, of line breaks, of a head that never ends or of a body, and a
session keeps next to nothing of it.  Whenever it waits it has dealt with all that it can.

* A session that waits for a head has no line break in front, because these are dropped, and no more
  than a head may have, because more would be refused.
* A session that waits for a body has nothing at all.

Two decisions rest on this.  A session that says it is idle ends when the server stops, and that is
right because it is idle exactly if it has nothing of a request (`Tracked.handleAll_follows`).  And
the end of the input is an end between two requests exactly if nothing is pending
(`nothingPending_iff`).

To say what is pending without looking at the session, all bytes that have arrived are accounted
for.  They are the messages that were answered, one after the other, and what is behind these
(`pending_handleAll`).  There is one way only to take them apart (`IsRow.rest_unique`).
-/

namespace ContentServer

/-! ## What the parser waits for -/

/-- A head that has not ended is not longer than a head may be. -/
theorem Request.length_le_of_parse_eq_none {maxBody : Nat} {buffer : Bytes}
    (h : parse maxBody buffer = .ok none) : buffer.length ≤ maxHead := by
  simp only [parse] at h
  split at h
  · split at h
    · cases h
    · next hshort => exact Nat.le_of_not_lt hshort
  · next i hi =>
    split at h
    · cases h
    · split at h
      · cases h
      · next head htext =>
        cases hhead : ofHead maxBody head with
        | error cause =>
          rw [hhead] at h
          cases h
        | ok r =>
          rw [hhead] at h
          cases h

/-- Where no line breaks come first, the first byte is none. -/
theorem Request.head?_of_blankLength_eq_zero {buffer : Bytes} (h : blankLength buffer = 0) :
    ∀ b ∈ buffer.head?, isLineBreak b = false := by
  intro b hb
  obtain ⟨bs, rfl⟩ := List.head?_eq_some_iff.mp hb
  cases hbreak : isLineBreak b with
  | false => rfl
  | true =>
    rw [blankLength_cons_of_pos hbreak] at h
    cases h

/-- Line breaks alone are all counted. -/
theorem Request.blankLength_eq_length {blank : Bytes} (h : ∀ b ∈ blank, isLineBreak b = true) :
    blankLength blank = blank.length := by
  have hcount := blankLength_append h []
  rwa [List.append_nil] at hcount

namespace Session

variable {site : Site} {limits : Limits} {now : Moment} {s t : Session} {state after : Site.State}

/-! ## Ended sessions stay ended -/

theorem open_of_receive {now : Time} {event : Event} (h : (s.receive now event).isEnded = false) :
    s.isEnded = false := by
  cases hended : s.isEnded with
  | false => rfl
  | true => rwa [receive_of_isEnded hended, hended] at h

theorem open_of_settle (h : (settle site limits now s state).1.isEnded = false) :
    s.isEnded = false := by
  cases hended : s.isEnded with
  | false => rfl
  | true => rwa [settle_of_waits (waits_of_isEnded hended), hended] at h

theorem handleAll_cons (now : Moment) (event : Event) (events : List (Moment × Event)) (s : Session)
    (state : Site.State) :
    handleAll site limits ((now, event) :: events) s state
      = handleAll site limits events (s.handle site limits now event state).1
          (s.handle site limits now event state).2 := rfl

theorem open_of_handleAll {events : List (Moment × Event)}
    (h : (handleAll site limits events s state).1.isEnded = false) : s.isEnded = false := by
  induction events generalizing s state with
  | nil => exact h
  | cons first events ih => exact open_of_receive (open_of_settle (ih h))

/-! ## Tracked sessions -/

/-- A waiting session has a status that is up to date: it says that it is idle exactly if it is. -/
def Tracked.UpToDate (m : Tracked) : Prop :=
  m.session.isEnded = false → (m.status = .idle ↔ m.session.isIdle = true)

theorem Tracked.upToDate_pause (m : Tracked) : m.pause.UpToDate := by
  intro hopen
  rw [session_pause] at hopen ⊢
  rw [isIdle_iff, pause]
  rcases phase_of_open hopen with hphase | ⟨request, missing, hphase⟩
  · rw [hphase]
    cases hbuffer : m.session.buffer <;> simp
  · rw [hphase]
    simp

theorem Tracked.settle_of_waits {m : Tracked} (h : m.session.Waits limits) :
    settle site limits now m state = (m.pause, state) := by
  have hstep : step site limits now m.session state = none := step_eq_none_iff.mpr h
  rw [settle]
  split
  · rfl
  · next hsome => rw [hstep] at hsome; cases hsome

theorem Tracked.settle_of_step {m : Tracked} (h : Step site limits now m.session state t after) :
    settle site limits now m state = settle site limits now (m.after t) after := by
  rw [settle]
  split
  · next hnone => rw [h.step] at hnone; cases hnone
  · next t' after' hsome =>
    rw [h.step] at hsome
    cases hsome
    rfl

theorem hangUp_of_isEnded (h : s.isEnded = true) : s.hangUp = s := by
  rw [isEnded] at h
  rw [hangUp]
  split at h
  · next how hphase => rw [hphase]
  · cases h

/-- An idle session ends between two requests when its input ends. -/
theorem hangUp_of_isIdle (h : s.isIdle = true) : s.hangUp = s.finish .complete := by
  obtain ⟨hphase, hbuffer⟩ := isIdle_iff.mp h
  rw [hangUp, hphase, hbuffer]
  rfl

/-- A tracked session settles as the session does, and its status is up to date after that. -/
theorem Tracked.settle_follows (site : Site) (limits : Limits) (now : Moment) (m : Tracked)
    (state : Site.State) :
    (settle site limits now m state).1.session
        = (Session.settle site limits now m.session state).1 ∧
      (settle site limits now m state).2 = (Session.settle site limits now m.session state).2 ∧
      (settle site limits now m state).1.UpToDate := by
  generalize hs : m.session = s
  induction s, state using settle_induction site limits now generalizing m with
  | waits s state h =>
    subst hs
    rw [settle_of_waits h, Session.settle_of_waits h]
    exact ⟨session_pause m, rfl, m.upToDate_pause⟩
  | step s state t after h ih =>
    subst hs
    rw [settle_of_step h, Session.settle_of_step h]
    exact ih (m.after t) (session_after m t)

/-- A session that says it is idle takes the request to stop for the end of its input.  It ends as
it would have ended in any case, because it is idle. -/
theorem Tracked.settle_receive {m : Tracked} (hm : m.UpToDate) (site : Site) (limits : Limits)
    (now : Moment) (event : Event) (state : Site.State) :
    Session.settle site limits now (m.receive now.clock event).session state
      = Session.settle site limits now (m.session.receive now.clock event) state := by
  rw [receive]
  dsimp only
  split
  · next hstop =>
    obtain ⟨rfl, hstatus⟩ := hstop
    cases hended : (m.session.receive now.clock .stop).isEnded with
    | true => rw [hangUp_of_isEnded hended]
    | false =>
      have hopen := open_of_receive hended
      have hin : m.session.InTime now.clock := by
        intro _
        by_contra hlate
        rw [receive_of_late hopen (Nat.lt_of_not_le hlate)] at hended
        cases hended
      have hidle : m.session.isIdle = true := (hm hopen).mp hstatus
      obtain ⟨hphase, hbuffer⟩ := isIdle_iff.mp hidle
      have hstep : Step site limits now { m.session with stopping := true } state
          ({ m.session with stopping := true }.finish .complete) state :=
        .stop hphase hbuffer rfl
      have hnoted : ({ m.session with stopping := true } : Session).isIdle = true := hidle
      rw [receive_of_inTime hopen hin, Session.settle_of_step hstep, hangUp_of_isIdle hnoted]
  · rfl

/-- What happens to a tracked session happens to the session, and the status is up to date when it
waits again. -/
theorem Tracked.handle_follows {m : Tracked} (hm : m.UpToDate) (site : Site) (limits : Limits)
    (now : Moment) (event : Event) (state : Site.State) :
    (m.handle site limits now event state).1.session
        = (m.session.handle site limits now event state).1 ∧
      (m.handle site limits now event state).2
        = (m.session.handle site limits now event state).2 ∧
      (m.handle site limits now event state).1.UpToDate := by
  have hsettle := settle_follows site limits now (m.receive now.clock event) state
  rwa [settle_receive hm] at hsettle

/-- So the status decides rightly which sessions end when the server stops. -/
theorem Tracked.handleAll_follows {m : Tracked} (hm : m.UpToDate) (site : Site) (limits : Limits)
    (events : List (Moment × Event)) (state : Site.State) :
    (handleAll site limits events m state).1.session
        = (Session.handleAll site limits events m.session state).1 ∧
      (handleAll site limits events m state).2
        = (Session.handleAll site limits events m.session state).2 ∧
      (handleAll site limits events m state).1.UpToDate := by
  induction events generalizing m state with
  | nil => exact ⟨rfl, rfl, hm⟩
  | cons first events ih =>
    obtain ⟨now, event⟩ := first
    obtain ⟨hsession, hstate, hdate⟩ := handle_follows hm site limits now event state
    have hrest := ih hdate (m.handle site limits now event state).2
    rw [hsession, hstate] at hrest
    rw [handleAll, handleAll_cons]
    dsimp only
    rw [hstate]
    exact hrest

theorem Tracked.upToDate_start (limits : Limits) (begin : Time) :
    (start limits begin).UpToDate := by
  intro hopen
  have hready := ready_start hopen
  exact iff_of_true rfl (isIdle_iff.mpr ⟨hready.phase, hready.buffer⟩)

/-! ## What a waiting session has -/

/-- Between two events a session waits. -/
theorem waits_handleAll (hs : s.Waits limits) (site : Site) (events : List (Moment × Event))
    (state : Site.State) : (handleAll site limits events s state).1.Waits limits := by
  induction events generalizing s state with
  | nil => exact hs
  | cons first events ih =>
    obtain ⟨now, event⟩ := first
    exact ih (waits_settle site limits now (s.receive now.clock event) state) _

theorem waits_start (limits : Limits) (begin : Time) : (start limits begin).Waits limits := by
  cases hended : (start limits begin).isEnded with
  | true => exact waits_of_isEnded hended
  | false => exact (ready_start hended).waits limits

theorem Waits.of_head (h : s.Waits limits) (hphase : s.phase = .head) :
    Request.blankLength s.buffer = 0 ∧ Request.parse limits.maxBody s.buffer = .ok none := by
  rw [Waits, hphase] at h
  exact ⟨h.1, h.2.1⟩

theorem Waits.of_body (h : s.Waits limits) {request : Request} {missing : Nat}
    (hphase : s.phase = .body request missing) : 0 < missing ∧ s.buffer = [] := by
  rw [Waits, hphase] at h
  exact h

/-! ## Rows of messages -/

/-- Two messages at the front of the same bytes end at the same place. -/
theorem Message.more_unique {maxBody : Nat} {m m' : Message maxBody} {more more' : Bytes}
    (h : m.bytes ++ more = m'.bytes ++ more') : m.request = m'.request ∧ more = more' := by
  have hfront : m.front.length = m'.front.length := by
    rw [← m.blankLength_bytes more, h, m'.blankLength_bytes]
  rw [m.bytes_eq, m'.bytes_eq] at h
  simp only [List.append_assoc] at h
  obtain ⟨-, h⟩ := List.append_inj h hfront
  have hparse := m.parse_core_append (m.body ++ more)
  rw [h, m'.parse_core_append] at hparse
  simp only [Except.ok.injEq, Option.some.injEq, Prod.mk.injEq] at hparse
  obtain ⟨hrequest, hcore⟩ := hparse
  obtain ⟨-, h⟩ := List.append_inj h hcore.symm
  have hbody : m.body.length = m'.body.length := by
    rw [m.length_body, m'.length_body, hrequest]
  exact ⟨hrequest.symm, (List.append_inj h hbody).2⟩

variable {maxBody : Nat} {bytes rest : Bytes} {requests : List Request}

/-- What is behind the messages of some requests is determined. -/
theorem IsRow.rest_unique {rest' : Bytes} (h : IsRow maxBody bytes requests rest)
    (h' : IsRow maxBody bytes requests rest') : rest = rest' := by
  induction requests generalizing bytes with
  | nil => exact h.eq_rest.symm.trans h'.eq_rest
  | cons request requests ih =>
    obtain ⟨m, more, -, hbytes, hmore⟩ := h.exists_first
    obtain ⟨m', more', -, hbytes', hmore'⟩ := h'.exists_first
    obtain ⟨-, rfl⟩ := Message.more_unique (hbytes.symm.trans hbytes')
    exact ih hmore hmore'

theorem IsRow.nil (maxBody : Nat) (bytes : Bytes) : IsRow maxBody bytes [] bytes := ⟨[], rfl, rfl⟩

/-- A row goes on with another one. -/
theorem IsRow.trans {others : List Request} {last : Bytes} (h : IsRow maxBody bytes requests rest)
    (hrest : IsRow maxBody rest others last) : IsRow maxBody bytes (requests ++ others) last := by
  induction requests generalizing bytes with
  | nil => rwa [h.eq_rest]
  | cons request requests ih =>
    obtain ⟨m, more, rfl, rfl, hmore⟩ := h.exists_first
    exact (ih hmore).cons m

/-- What arrives later is behind the messages. -/
theorem IsRow.append (h : IsRow maxBody bytes requests rest) (data : Bytes) :
    IsRow maxBody (bytes ++ data) requests (rest ++ data) := by
  obtain ⟨messages, hrequests, rfl⟩ := h
  exact ⟨messages, hrequests, List.append_assoc _ _ _⟩

/-! ## What is pending -/

/-- What has arrived since the last answer: line breaks, and behind them what the session has of a
request.  Of a head that is its buffer, and of a body also the bytes that were dropped. -/
inductive Pending (maxBody : Nat) (s : Session) (rest : Bytes) : Prop where
  /-- A head is being read. -/
  | head {blank : Bytes} (hphase : s.phase = .head)
      (hblank : ∀ b ∈ blank, Request.isLineBreak b = true) (hrest : rest = blank ++ s.buffer)
  /-- A body is being dropped. -/
  | body {request : Request} {missing : Nat} {blank head body : Bytes}
      (hphase : s.phase = .body request missing)
      (hblank : ∀ b ∈ blank, Request.isLineBreak b = true)
      (hparse : Request.parse maxBody head = .ok (some (request, head.length)))
      (hbody : body.length + missing = request.contentLength)
      (hrest : rest = blank ++ (head ++ (body ++ s.buffer)))

/-- A session between two requests has its buffer and nothing else. -/
theorem Pending.of_head (maxBody : Nat) (hphase : s.phase = .head) : s.Pending maxBody s.buffer :=
  .head hphase (List.forall_mem_nil _) (List.nil_append s.buffer).symm

/-- When a body is there in full, a message comes first in what is pending. -/
theorem Pending.message {request : Request} (h : s.Pending maxBody rest)
    (hphase : s.phase = .body request 0) : IsRow maxBody rest [request] s.buffer := by
  cases h with
  | head hhead => cases hphase.symm.trans hhead
  | @body request' missing blank head body hphase' hblank hparse hbody hrest =>
    cases hphase.symm.trans hphase'
    have hrow := (IsRow.nil maxBody s.buffer).cons
      ⟨blank, head, body, request, hblank, hparse, hbody⟩
    rw [Message.bytes, List.append_assoc, List.append_assoc] at hrow
    rwa [hrest]

/-- A step that answers a request takes its message away from what is pending.  Other steps leave
that as it is. -/
theorem Step.pending (h : Step site limits now s state t after)
    (hs : s.Pending limits.maxBody rest) (hopen : t.isEnded = false) :
    ∃ left, IsRow limits.maxBody rest s.due?.toList left ∧ t.Pending limits.maxBody left := by
  cases h with
  | @answer request hphase =>
    have hhead :
        (s.reply limits now (site.answerAt s.served now request state).1).phase = .head := by
      rcases phase_of_open hopen with hhead | ⟨_, _, hbody⟩
      · exact hhead
      · exact absurd hbody (phase_reply_ne_body limits now _ s _ _)
    have ht := Pending.of_head limits.maxBody hhead
    rw [buffer_reply] at ht
    rw [due?_eq_some_iff.mpr hphase]
    exact ⟨s.buffer, hs.message hphase, ht⟩
  | @discard request missing hphase hmissing hbuffer =>
    rw [due?_eq_none_of_missing hphase hmissing]
    cases hs with
    | head hhead => cases hphase.symm.trans hhead
    | @body request' missing' blank head body hphase' hblank hparse hbody hrest =>
      cases hphase.symm.trans hphase'
      have hleft : (body ++ s.buffer.take missing).length + (missing - s.buffer.length)
          = request.contentLength := by
        rw [List.length_append, List.length_take]
        omega
      refine ⟨rest, IsRow.nil _ rest, .body rfl hblank hparse hleft ?_⟩
      rw [List.append_assoc, List.take_append_drop, hrest]
  | blank hphase hpos =>
    rw [due?_eq_none_of_head hphase]
    cases hs with
    | @head blank _ hblank hrest =>
      have hdropped : ∀ b ∈ blank ++ s.buffer.take (Request.blankLength s.buffer),
          Request.isLineBreak b = true := by
        rw [List.forall_mem_append]
        exact ⟨hblank, fun b => Request.isLineBreak_of_mem_take⟩
      refine ⟨rest, IsRow.nil _ rest, .head hphase hdropped ?_⟩
      rw [List.append_assoc, List.take_append_drop, hrest]
    | body hphase' => cases hphase.symm.trans hphase'
  | refuse => cases hopen
  | @accept request n hphase hzero hparse =>
    rw [due?_eq_none_of_head hphase]
    cases hs with
    | @head blank _ hblank hrest =>
      have hhead : Request.parse limits.maxBody (s.buffer.take n)
          = .ok (some (request, (s.buffer.take n).length)) := by
        rw [List.length_take_of_le (Request.parse_consumed hparse).2]
        exact Request.parse_take_consumed hzero hparse
      have hbody : ([] : Bytes).length + request.contentLength = request.contentLength :=
        Nat.zero_add _
      refine ⟨rest, IsRow.nil _ rest, .body rfl hblank hhead hbody ?_⟩
      rw [List.nil_append, List.take_append_drop, hrest]
    | body hphase' => cases hphase.symm.trans hphase'
  | stop => cases hopen

/-- While a session settles, the messages that it answers are taken away from what is pending. -/
theorem pending_settle (hs : s.Pending limits.maxBody rest) (site : Site) (now : Moment)
    (state : Site.State) (hopen : (settle site limits now s state).1.isEnded = false) :
    ∃ left, IsRow limits.maxBody rest (answered site limits now s state) left ∧
      (settle site limits now s state).1.Pending limits.maxBody left := by
  induction s, state using settle_induction site limits now generalizing rest with
  | waits s state hwaits =>
    rw [settle_of_waits hwaits, answered_of_waits hwaits]
    exact ⟨rest, IsRow.nil _ rest, hs⟩
  | step s state t after hstep ih =>
    rw [settle_of_step hstep] at hopen ⊢
    rw [answered_of_step hstep]
    obtain ⟨between, hfirst, hpending⟩ := hstep.pending hs (open_of_settle hopen)
    obtain ⟨left, hothers, hleft⟩ := ih hpending hopen
    exact ⟨left, hfirst.trans hothers, hleft⟩

theorem Pending.append (h : s.Pending maxBody rest) (data : Bytes) :
    (s.append data).Pending maxBody (rest ++ data) := by
  cases h with
  | head hphase hblank hrest =>
    refine .head hphase hblank ?_
    rw [hrest, append_buffer, List.append_assoc]
  | body hphase hblank hparse hbody hrest =>
    refine .body hphase hblank hparse hbody ?_
    rw [hrest, append_buffer]
    simp only [List.append_assoc]

/-- What an event brings is pending, too. -/
theorem Pending.receive (h : s.Pending maxBody rest) (now : Moment) (event : Event)
    (hopen : (s.receive now.clock event).isEnded = false) :
    (s.receive now.clock event).Pending maxBody (rest ++ received [(now, event)]) := by
  have hs := open_of_receive hopen
  rcases Nat.lt_or_ge s.deadline now.clock with hlate | hin
  · rw [receive_of_late hs hlate] at hopen
    cases hopen
  · rw [receive_of_inTime hs fun _ => hin] at hopen ⊢
    cases event with
    | bytes data =>
      rw [show received [(now, Event.bytes data)] = data from List.append_nil data]
      exact h.append data
    | endOfInput =>
      have hopen : s.hangUp.isEnded = false := hopen
      rcases hangUp_of_open hs with hend | hend <;> rw [hend] at hopen <;> cases hopen
    | stop =>
      rw [show received [(now, Event.stop)] = [] from rfl, List.append_nil]
      cases h with
      | head hphase hblank hrest => exact .head hphase hblank hrest
      | body hphase hblank hparse hbody hrest => exact .body hphase hblank hparse hbody hrest
    | tick =>
      rwa [show received [(now, Event.tick)] = [] from rfl, List.append_nil]

/-- All that has arrived is the messages that were answered, and what is pending. -/
theorem pending_handleAll (hs : s.Pending limits.maxBody rest) (site : Site)
    (events : List (Moment × Event)) (state : Site.State)
    (hopen : (handleAll site limits events s state).1.isEnded = false) :
    ∃ left, IsRow limits.maxBody (rest ++ received events)
        ((answeredAll site limits events s state).map Prod.snd) left ∧
      (handleAll site limits events s state).1.Pending limits.maxBody left := by
  induction events generalizing s rest state with
  | nil => exact ⟨rest, by simpa [received, answeredAll] using IsRow.nil _ rest, hs⟩
  | cons first events ih =>
    obtain ⟨now, event⟩ := first
    have ht : (s.handle site limits now event state).1.isEnded = false := open_of_handleAll hopen
    have hnoted := hs.receive now event (open_of_settle ht)
    obtain ⟨between, hfirst, hpending⟩ := pending_settle hnoted site now state ht
    obtain ⟨left, hothers, hleft⟩ := ih (s := (s.handle site limits now event state).1) hpending
      (s.handle site limits now event state).2 hopen
    refine ⟨left, ?_, hleft⟩
    have hrow := (hfirst.append (received events)).trans hothers
    rw [received_cons, ← List.append_assoc, answeredAll]
    simpa only [List.map_append, List.map_map, Function.comp_def, List.map_id'] using hrow

/-! ## The end of the input -/

/-- Nothing of a request is pending if all that has arrived is the messages of the requests that
were answered, with line breaks behind them. -/
def NothingPending (maxBody : Nat) (arrived : Bytes) (answered : List Request) : Prop :=
  ∃ blank, (∀ b ∈ blank, Request.isLineBreak b = true) ∧ IsRow maxBody arrived answered blank

/-- A waiting session is idle exactly if only line breaks are pending. -/
theorem Pending.isIdle_iff_blank (h : s.Pending limits.maxBody rest) (hwaits : s.Waits limits) :
    s.isIdle = true ↔ ∀ b ∈ rest, Request.isLineBreak b = true := by
  rw [isIdle_iff]
  cases h with
  | @head blank hphase hblank hrest =>
    rw [hrest, List.forall_mem_append]
    constructor
    · rintro ⟨-, hbuffer⟩
      rw [hbuffer]
      exact ⟨hblank, List.forall_mem_nil _⟩
    · rintro ⟨-, hbuffer⟩
      have hlength := Request.blankLength_eq_length hbuffer
      rw [(hwaits.of_head hphase).1] at hlength
      exact ⟨hphase, List.eq_nil_of_length_eq_zero hlength.symm⟩
  | @body request missing blank head body hphase hblank hparse hbody hrest =>
    rw [hrest, List.forall_mem_append, List.forall_mem_append]
    constructor
    · rintro ⟨hhead, -⟩
      cases hphase.symm.trans hhead
    · rintro ⟨-, hhead, -⟩
      have hlength := Request.blankLength_eq_length hhead
      have htakes := Request.parse_takes hparse
      omega

/-- A waiting session is idle, or a request has begun. -/
theorem Waits.begun (h : s.Waits limits) (hopen : s.isEnded = false) (hbusy : s.isIdle = false) :
    s.Begun := by
  rcases phase_of_open hopen with hphase | ⟨request, missing, hphase⟩
  · refine begun_of_head hphase ?_
    rw [(h.of_head hphase).1, List.length_pos_iff]
    intro hbuffer
    rw [isIdle_iff.mpr ⟨hphase, hbuffer⟩] at hbusy
    cases hbusy
  · exact begun_of_body hphase

/-- How a waiting session ends when its input ends. -/
theorem phase_endOfInput (hwaits : s.Waits limits) (hopen : s.isEnded = false)
    (hin : s.InTime now.clock) (site : Site) (state : Site.State) :
    (s.handle site limits now .endOfInput state).1.phase
      = .ended (if s.isIdle then .complete else .failed .peerClosed) := by
  have hended := isEnded_receive_endOfInput now.clock s
  rw [handle, settle_of_waits (waits_of_isEnded hended), receive_of_inTime hopen hin]
  cases hidle : s.isIdle with
  | true => rw [hangUp_of_isIdle hidle]; rfl
  | false => rw [(hwaits.begun hopen hidle).hangUp]; rfl

/-- A waiting session is idle exactly if nothing of a request is pending. -/
theorem nothingPending_iff {begin : Time} (site : Site) (events : List (Moment × Event))
    (state : Site.State)
    (hopen : (handleAll site limits events (start limits begin) state).1.isEnded = false) :
    NothingPending limits.maxBody (received events)
        ((answeredAll site limits events (start limits begin) state).map Prod.snd) ↔
      (handleAll site limits events (start limits begin) state).1.isIdle = true := by
  have hready := ready_start (open_of_handleAll hopen)
  have hstart := Pending.of_head limits.maxBody hready.phase
  rw [hready.buffer] at hstart
  obtain ⟨left, hrow, hpending⟩ := pending_handleAll hstart site events state hopen
  rw [List.nil_append] at hrow
  rw [hpending.isIdle_iff_blank (waits_handleAll (waits_start limits begin) site events state)]
  constructor
  · rintro ⟨blank, hblank, hblankrow⟩
    rwa [hrow.rest_unique hblankrow]
  · exact fun hblank => ⟨left, hblank, hrow⟩

/-- Whatever arrives and however it is cut, a session that waits has dealt with all that it can.  If
it waits for a head, it has at most 8192 bytes, of which the first is no line break, and it says
that it is idle exactly if it has none.  If it waits for a body, it has nothing and does not say
that it is idle.  So when the input ends in time, the session ends as between two requests exactly
if nothing of a request is pending, and otherwise because the client has broken off. -/
theorem bounded_while_waiting (site : Site) (limits : Limits) (begin : Time)
    (events : List (Moment × Event)) (state : Site.State) :
    let r := Tracked.handleAll site limits events (Tracked.start limits begin) state
    let s := r.1.session
    let answered := (answeredAll site limits events (start limits begin) state).map Prod.snd
    (s, r.2) = handleAll site limits events (start limits begin) state ∧
    s.Waits limits ∧
    (s.phase = .head →
      s.buffer.length ≤ 8192 ∧ (∀ b ∈ s.buffer.head?, b ≠ 13 ∧ b ≠ 10) ∧
        (r.1.status = .idle ↔ s.buffer = [])) ∧
    (∀ request missing, s.phase = .body request missing →
      s.buffer = [] ∧ r.1.status ≠ .idle) ∧
    ∀ last : Moment, s.isEnded = false → last.clock ≤ s.deadline →
      let ended := (r.1.handle site limits last .endOfInput r.2).1.session
      (ended.phase = .ended .complete ↔
        NothingPending limits.maxBody (received events) answered) ∧
      (ended.phase = .ended (.failed .peerClosed) ↔
        ¬ NothingPending limits.maxBody (received events) answered) := by
  intro r s answered
  obtain ⟨hsession, hstate, hdate⟩ :=
    Tracked.handleAll_follows (Tracked.upToDate_start limits begin) site limits events state
  have hs : s = (handleAll site limits events (start limits begin) state).1 := hsession
  have hwaits : s.Waits limits := by
    rw [hs]
    exact waits_handleAll (waits_start limits begin) site events state
  refine ⟨Prod.ext hsession hstate, hwaits, fun hphase => ?_, fun request missing hphase => ?_,
    fun last hopen hin => ?_⟩
  · obtain ⟨hblank, hparse⟩ := hwaits.of_head hphase
    refine ⟨Request.length_le_of_parse_eq_none hparse, fun b hb => ?_, ?_⟩
    · have hbreak := Request.head?_of_blankLength_eq_zero hblank b hb
      simpa [Request.isLineBreak] using hbreak
    · have hopen : s.isEnded = false := by rw [isEnded, hphase]
      rw [hdate hopen, isIdle_iff]
      exact and_iff_right hphase
  · have hopen : s.isEnded = false := by rw [isEnded, hphase]
    refine ⟨(hwaits.of_body hphase).2, fun hstatus => ?_⟩
    have hidle := isIdle_iff.mp ((hdate hopen).mp hstatus)
    cases hphase.symm.trans hidle.1
  · have hnothing : NothingPending limits.maxBody (received events) answered ↔ s.isIdle = true := by
      rw [hs]
      exact nothingPending_iff site events state (hs ▸ hopen)
    intro ended
    have hended : ended.phase = .ended (if s.isIdle then .complete else .failed .peerClosed) := by
      rw [← phase_endOfInput hwaits hopen (fun _ => hin) site r.2]
      exact congrArg phase (Tracked.handle_follows hdate site limits last .endOfInput r.2).1
    rw [hnothing, hended]
    cases s.isIdle <;> simp

end Session

end ContentServer
