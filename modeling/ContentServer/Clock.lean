/-!
# Time

Two clocks run in the server.  The *monotonic* clock counts nanoseconds from some start and drives
expiry and timeouts.  The *wall* clock counts the seconds since the beginning of 1970 and is only
shown to clients.

A point on the monotonic clock holds its whole seconds in a signed 64-bit number, so the clock has
an end, `Clock.limit`.  A span that would lead to or past it has no end point, and `Clock.later?`
says so.
-/

namespace ContentServer

/-- A point on the monotonic clock, or a span of it, in nanoseconds. -/
abbrev Time := Nat

namespace Clock

/-- A span of whole seconds. -/
def seconds (n : Nat) : Time := n * 1000000000

/-- A span of whole milliseconds. -/
def milliseconds (n : Nat) : Time := n * 1000000

/-- The first point that the monotonic clock cannot show. -/
def limit : Time := seconds (UInt64.size / 2)

/-- The point that lies a span after another one, if the clock can show it. -/
def later? (now span : Time) : Option Time :=
  if now + span < limit then some (now + span) else none

end Clock

/-- The readings of both clocks at one moment. -/
structure Moment where
  /-- The monotonic clock. -/
  clock : Time
  /-- The wall clock, in seconds. -/
  wall : Nat
deriving DecidableEq, Repr

end ContentServer
