import ContentServer.Session
import ContentServer.Text.Decimal

/-!
# Settings

The settings say what a server serves and how it does that.  They start from their defaults or
from a document, and changes are made to them one after the other.

* An *environment* can name another document root, content root and port.  A port that is no
  decimal number below 2¹⁶ is ignored, and the other two are taken all the same.
* A *change* sets one of the settings.  The read timeout is a whole number of seconds and at least
  one, and the shutdown timeout is a whole number of seconds.

`readTimeout_pos_change` says that no change brings the read timeout down to nothing.
-/

namespace ContentServer

/-- What a server serves and how. -/
structure Settings where
  /-- The directory with the files. -/
  docRoot : String := "/var/www/html"
  /-- The directory with the pages and posts. -/
  contentRoot : String := "content"
  /-- The port that the server listens on. -/
  port : UInt16 := 10000
  /-- Whether only clients on the same machine can connect. -/
  isLocal : Bool := false
  /-- The number of threads, where 0 asks for one for each processor. -/
  workers : Nat := 0
  /-- The number of documents that the cache can hold. -/
  cacheSize : Nat := 25
  /-- How many seconds a request may take to arrive. -/
  readTimeout : Nat := 30
  /-- How many seconds sessions may take to end after the server was asked to stop. -/
  shutdownTimeout : Nat := 10
  /-- The most bytes in the body of a request. -/
  maxBody : Nat := 1048576
  /-- How requests are served. -/
  rules : Rules := {}
deriving DecidableEq, Repr

namespace Settings

/-- The number of threads of a server on a machine with a number of processors. -/
def workerThreads (s : Settings) (processors : Nat) : Nat :=
  if s.workers = 0 then max 1 processors else s.workers

/-- The address that the server listens on. -/
def host (s : Settings) : String := if s.isLocal then "127.0.0.1" else "0.0.0.0"

/-- The address and the port that the server listens on. -/
def endpoint (s : Settings) : String := s.host ++ ":" ++ toString s.port.toNat

/-- The limits of the sessions of the server. -/
def limits (s : Settings) : Session.Limits where
  readTimeout := Clock.seconds s.readTimeout
  maxBody := s.maxBody

/-! ## Environments -/

/-- What the environment of the server says about its settings. -/
structure Environment where
  /-- Another document root. -/
  docRoot : Option String := none
  /-- Another content root. -/
  contentRoot : Option String := none
  /-- Another port, as a text. -/
  port : Option String := none
deriving DecidableEq, Repr

/-- The port that a text denotes. -/
def port? (text : String) : Option UInt16 :=
  (Text.natural? UInt16.size text.toList).map UInt16.ofNat

/-- The settings in an environment. -/
def inEnvironment (s : Settings) (e : Environment) : Settings :=
  { s with
    docRoot := e.docRoot.getD s.docRoot
    contentRoot := e.contentRoot.getD s.contentRoot
    port := (e.port.bind port?).getD s.port }

/-! ## Changes -/

/-- A change of the settings. -/
inductive Change where
  /-- What an environment says is taken over. -/
  | environment (e : Environment)
  /-- The document root. -/
  | docRoot (path : String)
  /-- The port. -/
  | port (n : UInt16)
  /-- Whether only clients on the same machine can connect. -/
  | isLocal (b : Bool)
  /-- The read timeout, in milliseconds. -/
  | readTimeout (span : Nat)
  /-- The shutdown timeout, in milliseconds. -/
  | shutdownTimeout (span : Nat)
  /-- The size of the cache. -/
  | cacheSize (n : Nat)
  /-- The most bytes in a body. -/
  | maxBody (n : Nat)
  /-- How requests are served. -/
  | rules (rules : Rules)
deriving DecidableEq, Repr

/-- The settings after a change. -/
def change (s : Settings) : Change → Settings
  | .environment e => s.inEnvironment e
  | .docRoot path => { s with docRoot := path }
  | .port n => { s with port := n }
  | .isLocal b => { s with isLocal := b }
  | .readTimeout span => { s with readTimeout := max 1 (span / 1000) }
  | .shutdownTimeout span => { s with shutdownTimeout := span / 1000 }
  | .cacheSize n => { s with cacheSize := n }
  | .maxBody n => { s with maxBody := n }
  | .rules rules => { s with rules }

/-- The settings after some changes, the first one first. -/
def changeAll (s : Settings) (changes : List Change) : Settings := changes.foldl change s

/-- No change brings the read timeout down to nothing. -/
theorem readTimeout_pos_change {s : Settings} (h : 0 < s.readTimeout) (c : Change) :
    0 < (s.change c).readTimeout := by
  cases c <;> simp only [change, inEnvironment] <;> first | exact h | omega

example : ({} : Settings).endpoint = "0.0.0.0:10000" := by decide
example : (({} : Settings).inEnvironment { port := "+080" }).port = 80 := by decide
example : (({} : Settings).inEnvironment { docRoot := "d", port := "65536" }).docRoot = "d" := by
  decide

end Settings

end ContentServer
