/-!
# The end of a server

Three kinds of parties take part when a server ends, and their steps can come in any order.

* The *listener* accepts connections and starts a session for each.  After the stop signal it ends
  at some moment, and until then it can still accept.
* A *session* first takes itself off the counter of active sessions and then finishes.
* The *host* waits for the stop signal, then for the listener, and then for the sessions.

What the host waits for in the end is a channel on which nothing is ever sent.  It closes when its
last sender is dropped.  The host and the listener have a sender from the start, and the listener
gives a new one to every session before the session starts.  The host gives up after a timeout.

`Step` has all steps of the parties, and `Reachable` the states that they lead to.
-/

namespace ContentServer.Drain

/-- How far a session is. -/
inductive Stage where
  /-- It serves its connection. -/
  | serving
  /-- It has taken itself off the counter. -/
  | uncounted
  /-- It has dropped its sender. -/
  | finished
deriving DecidableEq, Repr

/-- What the host does. -/
inductive Host where
  /-- It waits for the stop signal. -/
  | running
  /-- It waits for the end of the listener. -/
  | joining
  /-- It has dropped its sender and waits for the channel to close. -/
  | draining
  /-- The channel has closed. -/
  | drained
  /-- It has waited too long. -/
  | timedOut
deriving DecidableEq, Repr

/-- A state of all parties together. -/
structure State where
  /-- Whether the stop signal was given. -/
  signalled : Bool := false
  /-- Whether the listener has not ended. -/
  listening : Bool := true
  /-- The sessions, the oldest one first. -/
  sessions : List Stage := []
  /-- The counter of active sessions. -/
  active : Int := 0
  /-- The number of senders of the channel. -/
  senders : Int := 2
  /-- What the host does. -/
  host : Host := .running
deriving DecidableEq, Repr

/-- A step of one of the parties. -/
inductive Step : State → State → Prop where
  /-- The stop signal is given. -/
  | signal {s : State} : Step s { s with signalled := true }
  /-- The listener accepts a connection and starts a session for it. -/
  | accept {s : State} (h : s.listening = true) :
      Step s { s with
        sessions := s.sessions ++ [.serving], active := s.active + 1, senders := s.senders + 1 }
  /-- The listener ends and drops its sender. -/
  | endListener {s : State} (h : s.listening = true) (hs : s.signalled = true) :
      Step s { s with listening := false, senders := s.senders - 1 }
  /-- A session takes itself off the counter. -/
  | uncount {s : State} (i : Nat) (h : s.sessions[i]? = some .serving) :
      Step s { s with sessions := s.sessions.set i .uncounted, active := s.active - 1 }
  /-- A session drops its sender. -/
  | finish {s : State} (i : Nat) (h : s.sessions[i]? = some .uncounted) :
      Step s { s with sessions := s.sessions.set i .finished, senders := s.senders - 1 }
  /-- The host sees the stop signal. -/
  | seeSignal {s : State} (h : s.host = .running) (hs : s.signalled = true) :
      Step s { s with host := .joining }
  /-- The host sees the end of the listener and drops its own sender. -/
  | join {s : State} (h : s.host = .joining) (hl : s.listening = false) :
      Step s { s with host := .draining, senders := s.senders - 1 }
  /-- The host sees that the channel has closed. -/
  | close {s : State} (h : s.host = .draining) (hn : s.senders = 0) :
      Step s { s with host := .drained }
  /-- The host gives up. -/
  | giveUp {s : State} (h : s.host = .draining) : Step s { s with host := .timedOut }

/-- The states that some steps lead to, from the one in which nothing has happened. -/
inductive Reachable : State → Prop where
  | start : Reachable {}
  | step {s t : State} (hs : Reachable s) (h : Step s t) : Reachable t

end ContentServer.Drain
