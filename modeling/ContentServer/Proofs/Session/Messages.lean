import ContentServer.Proofs.Session.Reads
import ContentServer.Proofs.Session.Replies

/-!
# Messages of a session

A client may send one message after the other without waiting for the answers.  A message is a head
with the line breaks before it and the body behind it, and the body may hold anything, also what
looks like a head.

The session stays in step with such a client.  As long as a message is not complete the session is
in a state that only depends on how much of it has arrived, and with its last byte the session
answers the request and is ready for the next message (`report_message`).  Then the answers to a row
of messages follow by induction, up to the first one after which the connection is closed
(`routed_messages`).
-/

namespace ContentServer

/-- The requests up to the first one that does not keep the connection open. -/
def Request.upToClose : List Request → List Request
  | [] => []
  | r :: rs => if r.keepAlive then r :: upToClose rs else [r]

namespace Session

variable {site : Site} {limits : Limits} {now : Moment} {s t : Session} {state after : Site.State}

/-! ## Ready sessions -/

/-- A read of a session that does not run out of time. -/
theorem report_bytes {data : Bytes} {events : List (Moment × Event)} (hopen : s.isEnded = false)
    (htime : ¬ (report site limits ((now, .bytes data) :: events) s state).session.RanOutOfTime) :
    report site limits ((now, .bytes data) :: events) s state
      = resume site limits now events (s.append data) state := by
  rw [report_cons, receive_bytes hopen (inTime_of_report htime)]

/-- A session that is ready for a message. -/
structure Ready (s : Session) : Prop where
  phase : s.phase = .head
  buffer : s.buffer = []
  stopping : s.stopping = false

theorem Ready.isEnded (hs : s.Ready) : s.isEnded = false := by
  rw [Session.isEnded, hs.phase]

theorem Ready.waits (hs : s.Ready) (limits : Limits) : s.Waits limits := by
  rw [Waits, hs.phase]
  dsimp only
  rw [hs.buffer, hs.stopping]
  exact ⟨rfl, rfl, fun h => Bool.false_ne_true h.2⟩

theorem Ready.withBuffer (hs : s.Ready) : { s with buffer := [] } = s := by
  rw [← hs.buffer]

/-- A line break is dropped at once. -/
theorem Ready.step_blank (hs : s.Ready) {b : UInt8} (hb : Request.isLineBreak b = true) :
    Step site limits now (s.append [b]) state s state := by
  have hbuffer : s.buffer ++ [b] = [b] := by rw [hs.buffer, List.nil_append]
  have hlength : Request.blankLength (s.buffer ++ [b]) = 1 := by
    rw [hbuffer]
    exact Request.blankLength_cons_of_pos hb []
  have hstep : Step site limits now (s.append [b]) state
      { s with buffer := (s.buffer ++ [b]).drop (Request.blankLength (s.buffer ++ [b])) } state :=
    .blank hs.phase (hlength ▸ Nat.one_pos)
  rw [hlength, hbuffer, List.drop_one, List.tail_cons, hs.withBuffer] at hstep
  exact hstep

/-- Line breaks leave a session as it is. -/
theorem report_blank (hs : s.Ready) {bytes : List (Moment × UInt8)}
    (hblank : ∀ arrival ∈ bytes, Request.isLineBreak arrival.2 = true)
    {events : List (Moment × Event)}
    (htime : ¬ (report site limits (feed bytes ++ events) s state).session.RanOutOfTime) :
    report site limits (feed bytes ++ events) s state = report site limits events s state := by
  induction bytes with
  | nil => rfl
  | cons first bytes ih =>
    obtain ⟨now, b⟩ := first
    have hb : Request.isLineBreak b = true := hblank _ List.mem_cons_self
    have hfirst : report site limits (feed ((now, b) :: bytes) ++ events) s state
        = report site limits (feed bytes ++ events) s state := by
      refine (report_bytes hs.isEnded htime).trans ?_
      exact (resume_of_step (hs.step_blank hb) (due?_eq_none_of_head hs.phase) _).trans
        (resume_of_waits (hs.waits limits) now _)
    rw [hfirst] at htime ⊢
    exact ih (fun arrival h => hblank arrival (List.mem_cons_of_mem _ h)) htime

/-! ## Heads -/

/-- The session that has a part of a head. -/
def reading (s : Session) (here : Bytes) : Session := { s with buffer := here }

/-- The session that drops a body. -/
def skipping (s : Session) (request : Request) (missing : Nat) : Session :=
  { s with phase := .body request missing }

variable {request : Request} {head : Bytes}

/-- A session that has a part of a head waits for the rest. -/
theorem Ready.waits_reading (hs : s.Ready) (hblank : Request.blankLength head = 0)
    (hparse : Request.parse limits.maxBody head = .ok (some (request, head.length)))
    {here rest : Bytes} (hhead : here ++ rest = head) (hrest : rest ≠ []) :
    (s.reading here).Waits limits := by
  have hhere : head.take here.length = here := by rw [← hhead, List.take_left]
  have hless : here.length < head.length := by
    rw [← hhead, List.length_append]
    exact Nat.lt_add_of_pos_right (List.length_pos_iff.mpr hrest)
  have hnone := Request.parse_take hblank hparse hless
  have hblank' := Request.blankLength_take hblank here.length
  rw [hhere] at hnone hblank'
  rw [Waits, reading]
  dsimp only
  rw [hs.phase]
  dsimp only
  rw [hs.stopping]
  exact ⟨hblank', hnone, fun h => Bool.false_ne_true h.2⟩

/-- A session that has all of a head goes on to the body. -/
theorem Ready.step_reading (hs : s.Ready) (hblank : Request.blankLength head = 0)
    (hparse : Request.parse limits.maxBody head = .ok (some (request, head.length))) :
    Step site limits now (s.reading head) state (s.skipping request request.contentLength)
      state := by
  have hstep : Step site limits now (s.reading head) state
      { s with phase := .body request request.contentLength,
               buffer := head.drop head.length } state :=
    .accept hs.phase hblank hparse
  rw [List.drop_length, ← hs.buffer] at hstep
  exact hstep

/-- With the last byte of a head the session goes on to the body. -/
theorem report_head (hs : s.Ready) (hblank : Request.blankLength head = 0)
    (hparse : Request.parse limits.maxBody head = .ok (some (request, head.length)))
    {here : Bytes} {bytes : List (Moment × UInt8)} (hhead : here ++ bytes.map Prod.snd = head)
    (hbytes : bytes ≠ []) {events : List (Moment × Event)}
    (htime : ¬ (report site limits (feed bytes ++ events) (s.reading here)
      state).session.RanOutOfTime) :
    ∃ now, report site limits (feed bytes ++ events) (s.reading here) state
      = resume site limits now events (s.skipping request request.contentLength) state := by
  induction bytes generalizing here with
  | nil => exact absurd rfl hbytes
  | cons first bytes ih =>
    obtain ⟨now, b⟩ := first
    rw [List.map_cons, List.append_cons] at hhead
    rw [feed_cons] at htime ⊢
    have hopen : (s.reading here).isEnded = false := hs.isEnded
    have hread := report_bytes hopen htime
    rw [show (s.reading here).append [b] = s.reading (here ++ [b]) from rfl] at hread
    rw [hread] at htime ⊢
    rcases eq_or_ne bytes [] with rfl | hlast
    · rw [List.map_nil, List.append_nil] at hhead
      refine ⟨now, ?_⟩
      rw [hhead]
      exact resume_of_step (hs.step_reading hblank hparse) (due?_eq_none_of_head hs.phase) _
    · have hwaits := hs.waits_reading hblank hparse hhead (by simpa using hlast)
      rw [resume_of_waits hwaits] at htime ⊢
      exact ih hhead hlast htime

/-! ## Bodies -/

theorem reply_skipping (limits : Limits) (now : Moment) (response : Response) (s : Session)
    (request : Request) (missing : Nat) :
    (s.skipping request missing).reply limits now response = s.reply limits now response := by
  simp only [reply]
  split
  · rfl
  · split
    · simp only [await]
      split <;> rfl
    · rfl

/-- A byte of a body is dropped at once. -/
theorem Ready.step_skipping (hs : s.Ready) (request : Request) (missing : Nat) (b : UInt8) :
    Step site limits now ((s.skipping request (missing + 1)).append [b]) state
      (s.skipping request missing) state := by
  have hbuffer : s.buffer ++ [b] = [b] := by rw [hs.buffer, List.nil_append]
  have hlength : missing + 1 - (s.buffer ++ [b]).length = missing := by rw [hbuffer]; rfl
  have hrest : (s.buffer ++ [b]).drop (missing + 1) = s.buffer := by
    rw [hbuffer, List.drop_succ_cons, List.drop_nil, hs.buffer]
  have hstep : Step site limits now ((s.skipping request (missing + 1)).append [b]) state
      { s with phase := .body request (missing + 1 - (s.buffer ++ [b]).length),
               buffer := (s.buffer ++ [b]).drop (missing + 1) } state :=
    .discard rfl (Nat.succ_pos missing) (by show s.buffer ++ [b] ≠ []; simp)
  rw [hlength, hrest] at hstep
  exact hstep

/-- With the last byte of a body the session answers the request. -/
theorem report_body (hs : s.Ready) {bytes : List (Moment × UInt8)}
    {events : List (Moment × Event)}
    (htime : ¬ (resume site limits now (feed bytes ++ events) (s.skipping request bytes.length)
      state).session.RanOutOfTime) :
    ∃ now', resume site limits now (feed bytes ++ events) (s.skipping request bytes.length) state
      = (resume site limits now' events
          (s.reply limits now' (site.answerAt s.served now' request state).1)
          (site.answerAt s.served now' request state).2).prepend [(now', request)] := by
  induction bytes generalizing now with
  | nil =>
    refine ⟨now, ?_⟩
    rw [← reply_skipping limits now _ s request 0]
    exact resume_answer rfl events
  | cons first bytes ih =>
    obtain ⟨now', b⟩ := first
    have hwaits : (s.skipping request (bytes.length + 1)).Waits limits :=
      ⟨Nat.succ_pos _, hs.buffer⟩
    have hopen : (s.skipping request (bytes.length + 1)).isEnded = false := rfl
    have hdue : ((s.skipping request (bytes.length + 1)).append [b]).due? = none := rfl
    rw [List.length_cons, resume_of_waits hwaits, feed_cons] at htime ⊢
    have hread := report_bytes hopen htime
    rw [resume_of_step (hs.step_skipping request bytes.length b) hdue] at hread
    rw [hread] at htime ⊢
    exact ih htime

/-! ## Replies -/

/-- A session is ready after it has awaited a request, unless the clock cannot show the deadline. -/
theorem ready_await (limits : Limits) (now : Time) (hbuffer : s.buffer = [])
    (hstopping : s.stopping = false) :
    (s.await limits now).Ready ∨ (s.await limits now).RanOutOfTime := by
  rw [await]
  split
  · exact Or.inr (Or.inr rfl)
  · exact Or.inl ⟨rfl, hbuffer, hstopping⟩

/-- A session that starts is ready, unless it ends at once. -/
theorem ready_start {begin : Time} (hopen : (start limits begin).isEnded = false) :
    (start limits begin).Ready := by
  rcases ready_await (s := {}) limits begin rfl rfl with hready | hlate
  · exact hready
  · exact absurd (isEnded_of_ranOutOfTime hlate) (Bool.eq_false_iff.mp hopen)

variable {response : Response}

/-- A session is ready again after a reply that keeps the connection open. -/
theorem Ready.reply (hs : s.Ready) (hwritten : ∃ n, response.write.2 = .ok n)
    (hkeep : response.keepAlive = true) (limits : Limits) (now : Moment) :
    (s.reply limits now response).Ready ∨ (s.reply limits now response).RanOutOfTime := by
  rw [reply_of_written hwritten, if_pos hkeep]
  exact ready_await limits now.clock hs.buffer hs.stopping

theorem Ready.waits_reply (hs : s.Ready) (hwritten : ∃ n, response.write.2 = .ok n)
    (limits : Limits) (now : Moment) : (s.reply limits now response).Waits limits := by
  cases hkeep : response.keepAlive with
  | true =>
    rcases hs.reply hwritten hkeep limits now with hready | hlate
    · exact hready.waits limits
    · exact waits_of_isEnded (isEnded_of_ranOutOfTime hlate)
  | false =>
    exact waits_of_isEnded (isEnded_reply hwritten (hkeep ▸ Bool.false_ne_true) limits now s)

/-! ## Messages -/

/-- A message: some line breaks, a head that the parser accepts, and as many bytes as the head
announces. -/
structure Message (maxBody : Nat) where
  /-- The line breaks before the head. -/
  blank : Bytes
  /-- The head. -/
  head : Bytes
  /-- The body, which may hold anything. -/
  body : Bytes
  /-- What the head asks for. -/
  request : Request
  blank_isLineBreak : ∀ b ∈ blank, Request.isLineBreak b = true
  parse_head : Request.parse maxBody head = .ok (some (request, head.length))
  length_body : body.length = request.contentLength

/-- What is sent for a message. -/
def Message.bytes {maxBody : Nat} (m : Message maxBody) : Bytes := m.blank ++ (m.head ++ m.body)

/-! A head may start with line breaks of its own.  A session cannot tell them from those before the
head, so it is convenient to count them among these. -/

/-- All line breaks in front of a message. -/
def Message.front {maxBody : Nat} (m : Message maxBody) : Bytes :=
  m.blank ++ m.head.take (Request.blankLength m.head)

/-- The head of a message without line breaks in front. -/
def Message.core {maxBody : Nat} (m : Message maxBody) : Bytes :=
  m.head.drop (Request.blankLength m.head)

theorem Message.bytes_eq {maxBody : Nat} (m : Message maxBody) :
    m.bytes = m.front ++ (m.core ++ m.body) := by
  rw [front, core, List.append_assoc, ← List.append_assoc (m.head.take _), List.take_append_drop,
    bytes]

theorem Message.isLineBreak_of_mem_front {maxBody : Nat} (m : Message maxBody) {b : UInt8}
    (h : b ∈ m.front) : Request.isLineBreak b = true := by
  rcases List.mem_append.mp h with h | h
  · exact m.blank_isLineBreak b h
  · exact Request.isLineBreak_of_mem_take h

theorem Message.parse_core {maxBody : Nat} (m : Message maxBody) :
    Request.parse maxBody m.core = .ok (some (m.request, m.core.length)) := by
  have hparse := Request.parse_drop_blank m.parse_head
  rw [← List.length_drop] at hparse
  exact hparse

/-- With the last byte of a message, and not before, a ready session answers its request. -/
theorem report_message (hs : s.Ready) (m : Message limits.maxBody) {bytes : List (Moment × UInt8)}
    (hbytes : bytes.map Prod.snd = m.bytes) {events : List (Moment × Event)}
    (htime : ¬ (report site limits (feed bytes ++ events) s state).session.RanOutOfTime) :
    ∃ now, report site limits (feed bytes ++ events) s state
      = (report site limits events
          (s.reply limits now (site.answerAt s.served now m.request state).1)
          (site.answerAt s.served now m.request state).2).prepend [(now, m.request)] := by
  rw [m.bytes_eq] at hbytes
  obtain ⟨front, rest, rfl, hfront, hrest⟩ := List.map_eq_append_iff.mp hbytes
  obtain ⟨core, body, rfl, hcore, hbody⟩ := List.map_eq_append_iff.mp hrest
  have hblank : ∀ arrival ∈ front, Request.isLineBreak arrival.2 = true := by
    intro arrival h
    exact m.isLineBreak_of_mem_front (hfront ▸ List.mem_map_of_mem h)
  have hne : core ≠ [] := by
    rintro rfl
    have hconsumed := Request.parse_consumed m.parse_core
    rw [← hcore] at hconsumed
    exact absurd hconsumed.1 (by decide)
  have hlength : body.length = m.request.contentLength := by
    rw [← m.length_body, ← hbody, List.length_map]
  rw [feed_append, feed_append, List.append_assoc, List.append_assoc] at htime ⊢
  have hfirst := report_blank hs hblank htime
  have hnone : s.reading [] = s := hs.withBuffer
  rw [hfirst, ← hnone] at htime
  obtain ⟨now, hnext⟩ :=
    report_head hs (Request.blankLength_drop m.head) m.parse_core hcore hne htime
  rw [hnext, ← hlength] at htime
  obtain ⟨now', hlast⟩ := report_body hs htime
  have hanswer := site.answerAt_answer s.served now' m.request state
  have hwaits := hs.waits_reply hanswer.written limits now'
  rw [resume_of_waits hwaits] at hlast
  rw [hnone, ← hlength] at hnext
  exact ⟨now', hfirst.trans (hnext.trans hlast)⟩

/-! ## Rows of messages -/

/-- What a report has to say if a session has served some requests and nothing else: those up to the
first one that closes the connection have gone to the site in their order, and the answers have been
sent one after the other. -/
structure Report.Serves (site : Site) (requests : List Request) (s : Session) (state : Site.State)
    (r : Report) : Prop where
  answered : r.answered.map Prod.snd = Request.upToClose requests
  output : r.session.output
    = s.output ++ ((site.answerFrom s.served r.answered state).1.map
        fun response => response.write.1).flatten
  served : r.session.served = s.served + r.answered.length
  state : r.state = (site.answerFrom s.served r.answered state).2

/-- The end of the input is the end of a ready session. -/
theorem serves_endOfInput (hs : s.Ready) {last : Moment}
    (htime : ¬ (report site limits [(last, .endOfInput)] s state).session.RanOutOfTime) :
    (report site limits [(last, .endOfInput)] s state).Serves site [] s state := by
  have hreceive : s.receive last.clock .endOfInput = s.finish .complete := by
    simp only [receive, expire_of_inTime (inTime_of_report htime), hs.isEnded, hangUp, hs.phase,
      hs.buffer]
    rfl
  have hended : (s.finish .complete).Waits limits := waits_of_isEnded rfl
  rw [report_cons, hreceive, resume_of_waits hended]
  exact ⟨rfl, (List.append_nil _).symm, rfl, rfl⟩

/-- The first of some requests is answered, and the others are served after that. -/
theorem Report.Serves.prepend {request : Request} {requests : List Request} {r : Report}
    (hkeep : request.keepAlive = true)
    (h : r.Serves site requests (s.reply limits now (site.answerAt s.served now request state).1)
      (site.answerAt s.served now request state).2) :
    (r.prepend [(now, request)]).Serves site (request :: requests) s state := by
  have hwritten := (site.answerAt_answer s.served now request state).written
  constructor
  · show request :: r.answered.map Prod.snd = _
    rw [Request.upToClose, if_pos hkeep, h.answered]
  · show r.session.output = _
    rw [h.output, served_reply hwritten, output_reply hwritten, List.append_assoc]
    rfl
  · show r.session.served = s.served + (r.answered.length + 1)
    rw [h.served, served_reply hwritten]
    omega
  · show r.state = _
    rw [h.state, served_reply hwritten]
    rfl

/-- The request that closes the connection is answered, and the others are not served. -/
theorem Report.Serves.close {request : Request} {requests : List Request}
    (hkeep : ¬ request.keepAlive = true) (events : List (Moment × Event)) :
    ((report site limits events (s.reply limits now (site.answerAt s.served now request state).1)
      (site.answerAt s.served now request state).2).prepend [(now, request)]).Serves site
        (request :: requests) s state := by
  have hanswer := site.answerAt_answer s.served now request state
  have hended := isEnded_reply hanswer.written (hanswer.keepAlive ▸ hkeep) limits now s
  rw [report_of_isEnded hended]
  constructor
  · show [request] = _
    rw [Request.upToClose, if_neg hkeep]
  · show (s.reply limits now _).forget.output = _
    rw [output_forget, output_reply hanswer.written]
    show _ = s.output
      ++ ([(site.answerAt s.served now request state).1.write.1] : List Bytes).flatten
    rw [List.flatten_singleton]
  · show (s.reply limits now _).forget.served = s.served + 1
    rw [served_forget, served_reply hanswer.written]
  · rfl

/-- A ready session serves the requests of a row of messages. -/
theorem serves_messages (hs : s.Ready) (messages : List (Message limits.maxBody))
    {bytes : List (Moment × UInt8)} (hbytes : bytes.map Prod.snd = messages.flatMap Message.bytes)
    {last : Moment}
    (htime : ¬ (report site limits (feed bytes ++ [(last, .endOfInput)]) s
      state).session.RanOutOfTime) :
    (report site limits (feed bytes ++ [(last, .endOfInput)]) s state).Serves site
      (messages.map Message.request) s state := by
  induction messages generalizing s state bytes with
  | nil =>
    obtain rfl : bytes = [] := List.map_eq_nil_iff.mp hbytes
    exact serves_endOfInput hs htime
  | cons m messages ih =>
    rw [List.flatMap_cons] at hbytes
    obtain ⟨first, rest, rfl, hfirst, hrest⟩ := List.map_eq_append_iff.mp hbytes
    rw [feed_append, List.append_assoc] at htime ⊢
    obtain ⟨now, hreport⟩ := report_message hs m hfirst htime
    rw [hreport] at htime ⊢
    rw [List.map_cons]
    by_cases hkeep : m.request.keepAlive = true
    · have hanswer := site.answerAt_answer s.served now m.request state
      rcases hs.reply hanswer.written (hanswer.keepAlive.trans hkeep) limits now with hready | hlate
      · exact (ih hready hrest htime).prepend hkeep
      · exact absurd (ranOutOfTime_report hlate _ _) htime
    · exact .close hkeep _

/-- A session that is sent a row of messages in some reads, and does not run out of time, answers
their requests in order, up to the first one that closes the connection.  Each answer starts from
the state that the one before has left.  No other request goes to the site, whatever the bodies and
the later messages look like. -/
theorem routed_messages (site : Site) (limits : Limits) (begin : Time)
    (messages : List (Message limits.maxBody)) (reads : List (Moment × Bytes))
    (hne : ∀ read ∈ reads, read.2 ≠ [])
    (hbytes : reads.flatMap Prod.snd = messages.flatMap Message.bytes) (last : Moment)
    (state : Site.State) (htime : ¬ (run site limits begin reads last state).1.RanOutOfTime) :
    let requests := Request.upToClose (messages.map Message.request)
    let answered := routed site limits begin reads last state
    let r := run site limits begin reads last state
    answered.map Prod.snd = requests ∧
      r.1.output
        = ((site.answerFrom 0 answered state).1.map fun response => response.write.1).flatten ∧
      r.1.served = requests.length ∧ r.2 = (site.answerFrom 0 answered state).2 := by
  intro requests answered r
  have hreport := report_reads site limits (stopping_start limits begin) reads hne
    [(last, .endOfInput)] state
  have htime' : ¬ (report site limits (feed (arrivals reads) ++ [(last, .endOfInput)])
      (start limits begin) state).session.RanOutOfTime := by
    rw [← hreport]
    exact fun h => htime (ranOutOfTime_forget.mp h)
  have hready : (start limits begin).Ready := by
    rcases ready_await (s := {}) limits begin rfl rfl with hready | hlate
    · exact hready
    · exact absurd (ranOutOfTime_report hlate _ _) htime'
  have hserves := serves_messages hready messages ((map_snd_arrivals reads).trans hbytes) htime'
  rw [← hreport] at hserves
  refine ⟨hserves.answered, ?_, ?_, ?_⟩
  · rw [← output_forget]
    refine hserves.output.trans ?_
    rw [output_start, served_start, List.nil_append]
    rfl
  · rw [← served_forget]
    refine hserves.served.trans ?_
    rw [served_start, Nat.zero_add, ← List.length_map Prod.snd, hserves.answered]
  · refine hserves.state.trans ?_
    rw [served_start]
    rfl

/-- A body that looks like a request, and a request that closes the connection. -/
theorem routed_of_a_body_like_a_request :
    let site := Site.ofLibrary "/f" ⟨"/content"⟩ {} (fun _ => Codec.failing) ⟨fun _ => none, []⟩
    let limits : Limits := { readTimeout := 5, maxBody := 20 }
    let now : Moment := ⟨3, 0⟩
    let first := Bytes.ofText "GET /a HTTP/1.1\r\nContent-Length: 19\r\n\r\n"
    let last := Bytes.ofText "GET /b HTTP/1.0\r\n\r\n"
    (routed site limits 3 [(now, [10]), (now, first ++ last ++ last)] now
        { cache := ⟨4, []⟩ }).map Prod.snd
      = [{ method := .get, target := "/a", version := .v11, contentLength := 19 },
         { method := .get, target := "/b", version := .v10 }] := by
  have hfirst : Request.parse 20 (Bytes.ofText "GET /a HTTP/1.1\r\nContent-Length: 19\r\n\r\n")
      = .ok (some ({ method := .get, target := "/a", version := .v11, contentLength := 19 }, 39)) :=
    rfl
  have hlast : Request.parse 20 (Bytes.ofText "GET /b HTTP/1.0\r\n\r\n")
      = .ok (some ({ method := .get, target := "/b", version := .v10 }, 19)) := rfl
  intro site limits now first last
  have hblank : ∀ b ∈ [10], Request.isLineBreak b = true := by
    intro b h
    rw [List.mem_singleton.mp h]
    rfl
  let messages : List (Message limits.maxBody) :=
    [⟨[10], first, last, _, hblank, hfirst, rfl⟩, ⟨[], last, [], _, nofun, hlast, rfl⟩]
  let reads : List (Moment × Bytes) := [(now, [10]), (now, first ++ last ++ last)]
  have hne : ∀ read ∈ reads, read.2 ≠ [] := by
    intro read h
    rcases List.mem_cons.mp h with rfl | h
    · exact List.cons_ne_nil 10 []
    · rw [List.mem_singleton.mp h]
      exact List.append_ne_nil_of_right_ne_nil _ (fun h => nomatch congrArg List.length h)
  have hbytes : reads.flatMap Prod.snd = messages.flatMap Message.bytes := by
    simp [reads, messages, Message.bytes]
  have htime : ¬ (run site limits 3 reads now { cache := ⟨4, []⟩ }).1.RanOutOfTime :=
    not_ranOutOfTime_serve rfl site [[10], first ++ last ++ last] { cache := ⟨4, []⟩ }
  exact (routed_messages site limits 3 messages reads hne hbytes now _ htime).1

end Session

end ContentServer
