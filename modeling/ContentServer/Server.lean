import ContentServer.Console
import ContentServer.Settings

/-!
# The server

A server listens at its endpoint and runs a session for each connection that it accepts.  All
sessions share the state of one site.  An operator talks to the server through its console.

* A session counts as *active* until it leaves.  A session that broke down never leaves.
* A server that was asked to stop accepts nothing, and it asks each of its sessions to stop.
* At its *shutdown* it waits until all sessions have left, but no longer than the shutdown timeout.
-/

namespace ContentServer

/-- A server and its sessions. -/
structure Server where
  /-- What it serves. -/
  site : Site
  /-- The limits of its sessions. -/
  limits : Session.Limits
  /-- The state that its sessions share. -/
  state : Site.State
  /-- All sessions that it has accepted, the first one first. -/
  sessions : List Session := []
  /-- Whether it was asked to stop. -/
  stopping : Bool := false

namespace Server

/-- The server with some settings, for the given files. -/
def ofSettings (files : FileTree) (codecs : Codecs) (s : Settings) : Server where
  site := Site.ofLibrary s.docRoot ⟨s.contentRoot⟩ s.rules codecs files
  limits := s.limits
  state := { cache := ⟨s.cacheSize, []⟩ }

/-- The fault of a server whose endpoint is taken. -/
def addressInUse (endpoint : String) : Fault :=
  .listener ("bind " ++ endpoint ++ ": " ++ (SystemError.ofCode 98).text)

/-! ## Sessions -/

/-- Whether a session has left the server. -/
def hasLeft (s : Session) : Bool :=
  match s.phase with
  | .ended .noDeadline => false
  | .ended _ => true
  | _ => false

/-- The number of active sessions. -/
def active (srv : Server) : Nat := srv.sessions.countP fun s => !hasLeft s

/-- The server after a client has connected. -/
def accept (now : Time) (srv : Server) : Server :=
  if srv.stopping then srv
  else { srv with sessions := srv.sessions ++ [Session.start srv.limits now] }

/-- The server after something has happened to the session at a place. -/
def handleAt (now : Moment) (event : Session.Event) (i : Nat) (srv : Server) : Server :=
  match srv.sessions[i]? with
  | none => srv
  | some s =>
    let (s, state) := s.handle srv.site srv.limits now event srv.state
    { srv with sessions := srv.sessions.set i s, state }

/-- The server after something has happened to all of its sessions. -/
def handleEach (now : Moment) (event : Session.Event) (srv : Server) : Server :=
  (List.range srv.sessions.length).foldl (fun srv i => srv.handleAt now event i) srv

/-- The server after a new connection, on which some events follow. -/
def connect (now : Moment) (events : List Session.Event) (srv : Server) : Server :=
  let place := srv.sessions.length
  events.foldl (fun srv event => srv.handleAt now event place) (srv.accept now.clock)

/-- What has been sent on the connection at a place. -/
def sent (srv : Server) (i : Nat) : Bytes :=
  match srv.sessions[i]? with
  | none => []
  | some s => s.output

/-! ## Operation -/

/-- The server after it was asked to stop. -/
def stop (now : Moment) (srv : Server) : Server :=
  { srv with stopping := true }.handleEach now .stop

/-- A run of the console, and the server that it leaves. -/
def console (now : Moment) (input : Bytes) (srv : Server) : Console.Outcome × Server :=
  let outcome := Console.run now.clock srv.active input srv.state.cache
  let srv := { srv with state := { srv.state with cache := outcome.cache } }
  (outcome, if outcome.stopped then srv.stop now else srv)

/-- The server at the end of its shutdown. -/
def shutdown (now : Moment) (timeout : Time) (srv : Server) : Server :=
  (srv.stop now).handleEach ⟨now.clock + timeout, now.wall⟩ .tick

end Server

end ContentServer
