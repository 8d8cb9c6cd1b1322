/-!
# Content codings

A client lists the codings that it accepts, and a rendered document is sent in the first of
`gzip`, `deflate` and `br` that is in the list.
-/

namespace ContentServer

/-- A way to encode the body of an answer. -/
inductive Coding where
  | gzip | deflate | br
deriving DecidableEq, Repr

namespace Coding

/-- The codings, the preferred one first. -/
def all : List Coding := [.gzip, .deflate, .br]

/-- The name of a coding in the fields of a head. -/
def token : Coding → String
  | .gzip => "gzip"
  | .deflate => "deflate"
  | .br => "br"

/-- The preferred one of the codings that a client accepts. -/
def choose (accepted : List Coding) : Option Coding := all.find? accepted.contains

/-- The chosen coding is one that the client accepts. -/
theorem mem_of_choose {accepted : List Coding} {c : Coding} (h : choose accepted = some c) :
    c ∈ accepted := by
  simpa using List.find?_some h

end Coding

end ContentServer
