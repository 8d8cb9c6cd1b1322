import ContentServer.Site

/-!
# Sessions

A session serves one connection.  It reads requests one after the other and answers each before it
reads the next.

* Between requests, line breaks are dropped.
* A head is read with `Request.parse`.  A head that is refused is answered with its fault, and that
  ends the session.
* The bytes of the body are dropped as they come.  Only when the last of them is there does the
  request go to the site.
* The session ends after an answer that closes the connection, and otherwise reads on.
* The files may change while the session goes on.  So an answer depends on how many the session has
  given before it (`Site.answerAt`).
* Reading a request, head and body together, has a deadline.  It is set once, when the session
  starts or the answer before it is written.

Bytes that have arrived and belong to no finished request wait in the buffer.  A session *waits*
when `step` does nothing: all that is in the buffer has been dealt with.  It is *idle* when it
waits for a head and its buffer is empty.  Four things can happen to a waiting session: bytes
arrive, the client ends its input, the server asks all sessions to stop, or time passes.  An idle
session that is asked to stop ends.  A session in the middle of a request reads it to its end first.

The connection outlives its session only if a head was refused.  Then the session *lingers*: input
is read and dropped for a little while, so that the refusal reaches the client.  Nothing depends on
that input, and it is no event of the session.

`settle` takes all steps that are possible.  `step_size` says that each step makes the session
smaller, so that this ends.
-/

namespace ContentServer

namespace Session

/-- What a session may take. -/
structure Limits where
  /-- The time for reading a request. -/
  readTimeout : Time
  /-- The longest body. -/
  maxBody : Nat
deriving DecidableEq, Repr

/-- How a session ended. -/
inductive Ending where
  /-- Between two requests: the client has no more, or the server stops. -/
  | complete
  /-- After an answer that closes the connection. -/
  | answered
  /-- A head was refused. -/
  | refused (cause : RequestFault)
  /-- Reading or writing failed. -/
  | failed (fault : Fault)
  /-- The clock cannot show the deadline, and the session broke down. -/
  | noDeadline
deriving DecidableEq, Repr

/-- What a session is doing. -/
inductive Phase where
  /-- It reads a head. -/
  | head
  /-- It drops the body of a request, of which some bytes are missing. -/
  | body (request : Request) (missing : Nat)
  /-- It has ended. -/
  | ended (how : Ending)
deriving DecidableEq, Repr

end Session

/-- The service of one connection. -/
structure Session where
  /-- What it is doing. -/
  phase : Session.Phase := .head
  /-- What has arrived and is not dealt with. -/
  buffer : Bytes := []
  /-- The last moment for the request that is being read. -/
  deadline : Time := 0
  /-- Whether the server stops. -/
  stopping : Bool := false
  /-- The number of requests that have been answered. -/
  served : Nat := 0
  /-- All that has been sent. -/
  output : Bytes := []
deriving DecidableEq, Repr

namespace Session

/-- Whether a session has ended. -/
def isEnded (s : Session) : Bool :=
  match s.phase with
  | .ended _ => true
  | _ => false

/-- Whether nothing of a request has arrived. -/
def isIdle (s : Session) : Bool := s.phase == .head && s.buffer.isEmpty

/-- The session after its end. -/
def finish (s : Session) (how : Ending) : Session := { s with phase := .ended how }

/-- The session at the start of reading a request. -/
def await (limits : Limits) (now : Time) (s : Session) : Session :=
  match Clock.later? now limits.readTimeout with
  | none => s.finish .noDeadline
  | some deadline => { s with phase := .head, deadline }

/-- A session that has just been accepted. -/
def start (limits : Limits) (now : Time) : Session := await limits now {}

/-- The session with more bytes sent. -/
def send (s : Session) (bytes : Bytes) : Session := { s with output := s.output ++ bytes }

/-- The session after it has refused a head. -/
def refuse (now : Moment) (cause : RequestFault) (s : Session) : Session :=
  (s.send (Response.protocolError (.request cause) now.wall).write.1).finish (.refused cause)

/-- The session after it has written a response. -/
def reply (limits : Limits) (now : Moment) (response : Response) (s : Session) : Session :=
  let (bytes, outcome) := response.write
  let s := s.send bytes
  match outcome with
  | .error fault => s.finish (.failed fault)
  | .ok _ =>
    let s := { s with served := s.served + 1 }
    if response.keepAlive then s.await limits now.clock else s.finish .answered

/-! ## The end of the connection -/

/-- Whether a session that has ended reads and drops input before its connection is closed. -/
def lingers (s : Session) : Bool :=
  match s.phase with
  | .ended (.refused _) => true
  | _ => false

/-- How long a session lingers at most. -/
def lingerTime : Time := Clock.seconds 2

/-- A session that has dropped so many bytes while it lingers drops no more. -/
def lingerBytes : Nat := 1024 * 1024

/-! ## Steps -/

/-- The next thing that a session does with what has arrived, if there is any. -/
def step (site : Site) (limits : Limits) (now : Moment) (s : Session) (state : Site.State) :
    Option (Session × Site.State) :=
  match s.phase with
  | .ended _ => none
  | .body request missing =>
    if missing = 0 then
      let (response, state) := site.answerAt s.served now request state
      some (s.reply limits now response, state)
    else if s.buffer.isEmpty then none
    else
      some ({ s with
        phase := .body request (missing - s.buffer.length), buffer := s.buffer.drop missing },
        state)
  | .head =>
    let blank := Request.blankLength s.buffer
    if 0 < blank then some ({ s with buffer := s.buffer.drop blank }, state)
    else
      match Request.parse limits.maxBody s.buffer with
      | .error cause => some (s.refuse now cause, state)
      | .ok (some (request, n)) =>
        some ({ s with phase := .body request request.contentLength, buffer := s.buffer.drop n },
          state)
      | .ok none =>
        if s.buffer.isEmpty && s.stopping then some (s.finish .complete, state) else none

/-- How far a phase is from the end. -/
def Phase.rank : Phase → Nat
  | .ended _ => 0
  | .head => 1
  | .body .. => 2

/-- A measure of what is left to do with what has arrived. -/
def size (s : Session) : Nat := 3 * s.buffer.length + s.phase.rank

theorem rank_await_le (limits : Limits) (now : Time) (s : Session) :
    (s.await limits now).phase.rank ≤ 1 := by
  unfold await
  split <;> simp [finish, Phase.rank]

theorem buffer_await (limits : Limits) (now : Time) (s : Session) :
    (s.await limits now).buffer = s.buffer := by
  unfold await
  split <;> rfl

/-- Writing a response leaves the buffer as it is, and the session reads a head or has ended. -/
theorem size_reply_le (limits : Limits) (now : Moment) (response : Response) (s : Session) :
    (s.reply limits now response).size ≤ 3 * s.buffer.length + 1 := by
  unfold reply
  generalize response.write = w
  obtain ⟨bytes, outcome⟩ := w
  cases outcome with
  | error fault => simp [size, send, finish, Phase.rank]
  | ok n =>
    dsimp only
    split
    · simp only [size, buffer_await]
      have := rank_await_le limits now.clock { s.send bytes with served := s.served + 1 }
      simp only [send] at this ⊢
      omega
    · simp [size, send, finish, Phase.rank]

/-- Every step makes the session smaller. -/
theorem step_size {site : Site} {limits : Limits} {now : Moment} {s t : Session}
    {state after : Site.State} (h : step site limits now s state = some (t, after)) :
    t.size < s.size := by
  unfold step at h
  split at h
  · cases h
  · next request missing hphase =>
    have hs : s.size = 3 * s.buffer.length + 2 := by simp [size, hphase, Phase.rank]
    split at h
    · simp only [Option.some.injEq, Prod.mk.injEq] at h
      have := size_reply_le limits now (site.answerAt s.served now request state).1 s
      rw [← h.1]
      omega
    · next hm =>
      split at h
      · cases h
      · next hb =>
        simp only [Option.some.injEq, Prod.mk.injEq] at h
        have hpos : 0 < s.buffer.length := by
          cases hbuf : s.buffer with
          | nil => simp [hbuf] at hb
          | cons b bs => simp
        rw [← h.1, hs]
        simp only [size, Phase.rank, List.length_drop]
        omega
  · next hphase =>
    have hs : s.size = 3 * s.buffer.length + 1 := by simp [size, hphase, Phase.rank]
    dsimp only at h
    split at h
    · next hblank =>
      simp only [Option.some.injEq, Prod.mk.injEq] at h
      have := Request.blankLength_le s.buffer
      rw [← h.1, hs]
      simp only [size, hphase, Phase.rank, List.length_drop]
      omega
    · split at h
      · simp only [Option.some.injEq, Prod.mk.injEq] at h
        rw [← h.1, hs]
        simp [size, refuse, send, finish, Phase.rank]
      · next request n hparse =>
        simp only [Option.some.injEq, Prod.mk.injEq] at h
        obtain ⟨h4, hn⟩ := Request.parse_consumed hparse
        rw [← h.1, hs]
        simp only [size, Phase.rank, List.length_drop]
        omega
      · split at h
        · simp only [Option.some.injEq, Prod.mk.injEq] at h
          rw [← h.1, hs]
          simp [size, finish, Phase.rank]
        · cases h

/-- The session when it waits again or has ended. -/
def settle (site : Site) (limits : Limits) (now : Moment) (s : Session) (state : Site.State) :
    Session × Site.State :=
  match _h : step site limits now s state with
  | none => (s, state)
  | some (s', state) => settle site limits now s' state
termination_by s.size
decreasing_by exact step_size _h

/-! ## What happens to a session -/

/-- Something that happens to a session. -/
inductive Event where
  /-- Bytes arrive. -/
  | bytes (data : Bytes)
  /-- The client ends its input. -/
  | endOfInput
  /-- The server asks all sessions to stop. -/
  | stop
  /-- Nothing but the passing of time. -/
  | tick
deriving DecidableEq, Repr

/-- The session at a time, which ends it if its deadline is over. -/
def expire (now : Time) (s : Session) : Session :=
  if !s.isEnded && s.deadline < now then s.finish (.failed .readTimeout) else s

/-- The end of a waiting session whose client has ended its input.  Nothing is wrong with that
between two requests. -/
def hangUp (s : Session) : Session :=
  match s.phase with
  | .ended _ => s
  | .body .. => s.finish (.failed .peerClosed)
  | .head =>
    if Request.blankLength s.buffer = s.buffer.length then s.finish .complete
    else s.finish (.failed .peerClosed)

/-- The session that takes note of an event.  It has done nothing about it yet. -/
def receive (now : Time) (event : Event) (s : Session) : Session :=
  let s := s.expire now
  if s.isEnded then s
  else
    match event with
    | .bytes data => { s with buffer := s.buffer ++ data }
    | .endOfInput => s.hangUp
    | .stop => { s with stopping := true }
    | .tick => s

/-- What an event makes of a session. -/
def handle (site : Site) (limits : Limits) (now : Moment) (event : Event)
    (s : Session) (state : Site.State) : Session × Site.State :=
  settle site limits now (s.receive now.clock event) state

/-- What a row of events, each at its moment, makes of a session. -/
def handleAll (site : Site) (limits : Limits) :
    List (Moment × Event) → Session → Site.State → Session × Site.State
  | [], s, state => (s, state)
  | (now, event) :: events, s, state =>
    let (s, state) := s.handle site limits now event state
    handleAll site limits events s state

/-- The session on a connection whose input arrives in some pieces and then ends, all at one
moment. -/
def serve (site : Site) (limits : Limits) (now : Moment) (pieces : List Bytes)
    (state : Site.State) : Session × Site.State :=
  handleAll site limits (pieces.map (fun piece => (now, .bytes piece)) ++ [(now, .endOfInput)])
    (start limits now.clock) state

end Session

end ContentServer
