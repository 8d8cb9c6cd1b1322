/-!
# Request methods and protocol versions

A request line names one of nine methods, in capital letters, and one of two versions of the
protocol.  Only `GET` and `HEAD` are served.  The other seven are known so that they can be
refused with an answer.

`ofToken?_eq_some_iff` says that the tokens and the methods are the same thing.
-/

namespace ContentServer

/-- What a request asks to be done. -/
inductive Method where
  | get | head | options | post | put | delete | patch | connect | trace
deriving DecidableEq, Repr

namespace Method

/-- Every method. -/
def all : List Method := [.get, .head, .options, .post, .put, .delete, .patch, .connect, .trace]

/-- The word for a method in a request line. -/
def token : Method → String
  | .get => "GET"
  | .head => "HEAD"
  | .options => "OPTIONS"
  | .post => "POST"
  | .put => "PUT"
  | .delete => "DELETE"
  | .patch => "PATCH"
  | .connect => "CONNECT"
  | .trace => "TRACE"

/-- The method that a word names.  Case matters. -/
def ofToken? (s : String) : Option Method := all.find? fun m => m.token == s

theorem ofToken?_token (m : Method) : ofToken? m.token = some m := by cases m <;> decide

/-- A word names a method iff it is that method's word. -/
theorem ofToken?_eq_some_iff {s : String} {m : Method} : ofToken? s = some m ↔ s = m.token := by
  constructor
  · intro h
    have hm := List.find?_some (show all.find? (fun m => m.token == s) = some m from h)
    exact (beq_iff_eq.mp hm).symm
  · rintro rfl
    exact ofToken?_token m

end Method

/-- The versions of the protocol that are spoken. -/
inductive Version where
  /-- A connection ends after each answer unless the client asks to keep it. -/
  | v10
  /-- A connection is kept until one side asks to close it. -/
  | v11
deriving DecidableEq, Repr

/-- The word for a version in request and status lines. -/
def Version.token : Version → String
  | .v10 => "HTTP/1.0"
  | .v11 => "HTTP/1.1"

end ContentServer
