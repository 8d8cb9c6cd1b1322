import ContentServer.Session

/-!
# The status of a session

A session says what it is doing.  It does not work this out from what it has, but writes down a
*status* at some points and leaves it until the next one.

* Before it waits, it is `idle` if it waits for a head and has nothing of it, and `reading` if it
  waits for the rest of a head or for a body.
* While it answers, it is `writing`, and it stays so until it waits.
* When it has ended, it is `closed`.

What the status says decides about the request to stop.  A waiting session whose status is `idle`
takes it for the end of the input.  Any other status makes it go on, and it only takes note of the
request.  So a status that is out of date would end a session in the middle of a request, or keep
one open for which there is nothing to do.
-/

namespace ContentServer.Session

/-- What a session says that it is doing. -/
inductive Status where
  /-- It waits for the first byte of a request. -/
  | idle
  /-- It waits for the rest of a request. -/
  | reading
  /-- It answers a request. -/
  | writing
  /-- It has ended. -/
  | closed
deriving DecidableEq, Repr

/-- A session with the status that it has written down. -/
structure Tracked where
  /-- The session. -/
  session : Session
  /-- What it has said last. -/
  status : Status
deriving DecidableEq, Repr

namespace Tracked

/-- A session that has just been accepted. -/
def start (limits : Limits) (now : Time) : Tracked := ⟨Session.start limits now, .idle⟩

/-- The session before it waits. -/
def pause (m : Tracked) : Tracked :=
  match m.session.phase with
  | .head => { m with status := if m.session.buffer.isEmpty then .idle else .reading }
  | .body .. => { m with status := .reading }
  | .ended _ => m

/-- What a step that leads to a session makes of the status. -/
def after (m : Tracked) (t : Session) : Tracked :=
  if t.isEnded then ⟨t, .closed⟩
  else
    match m.session.phase with
    | .body _ 0 => ⟨t, .writing⟩
    | _ => ⟨t, m.status⟩

@[simp] theorem session_pause (m : Tracked) : m.pause.session = m.session := by
  rw [pause]
  split <;> rfl

@[simp] theorem session_after (m : Tracked) (t : Session) : (m.after t).session = t := by
  rw [after]
  split
  · rfl
  · split <;> rfl

/-- The session when it waits again or has ended. -/
def settle (site : Site) (limits : Limits) (now : Moment) (m : Tracked) (state : Site.State) :
    Tracked × Site.State :=
  match _h : step site limits now m.session state with
  | none => (m.pause, state)
  | some (t, state) => settle site limits now (m.after t) state
termination_by m.session.size
decreasing_by
  rw [session_after]
  exact step_size _h

/-- The session that takes note of an event.  The request to stop is the end of the input for a
session that says it is idle, and no other one ends because of it. -/
def receive (now : Time) (event : Event) (m : Tracked) : Tracked :=
  let t := m.session.receive now event
  let t := if event = .stop ∧ m.status = .idle then t.hangUp else t
  ⟨t, if t.isEnded then .closed else m.status⟩

/-- What an event makes of a session. -/
def handle (site : Site) (limits : Limits) (now : Moment) (event : Event) (m : Tracked)
    (state : Site.State) : Tracked × Site.State :=
  settle site limits now (m.receive now.clock event) state

/-- What a row of events, each at its moment, makes of a session. -/
def handleAll (site : Site) (limits : Limits) :
    List (Moment × Event) → Tracked → Site.State → Tracked × Site.State
  | [], m, state => (m, state)
  | (now, event) :: events, m, state =>
    let (m, state) := m.handle site limits now event state
    handleAll site limits events m state

end Tracked

end ContentServer.Session
