import ContentServer.Codec.Stored
import ContentServer.CommandLine
import ContentServer.Disk
import ContentServer.Site.Reads
import Std.Async.Signal
import Std.Async.TCP
import Std.Async.Timer
import Std.Sync.CancellationToken
import Std.Sync.Mutex

/-!
# The program

The program reads its arguments, its environment and its settings, opens its endpoint, and serves
until it is asked to stop, by the console or by a signal.  All decisions are those of the library.
This module waits for what happens, hands it to the library, and sends and prints what comes out.

A session goes on step by step.  Before a request is answered, the disk is observed at the paths
that the answer can depend on (`Site.answer_congr`).  So the files may be others at each answer, as
in a `Course`, but the file that is sent is the one that was observed.  The sessions take turns at
the state that they share, one step each.

The program writes no log.  Its threads are those of the runtime, and they end with the console: a
console that waits for a line keeps the program from ending until its input goes on.
-/

namespace ContentServer.Program

open Std.Async

/-- What the parts of a running server share. -/
structure Shared where
  /-- The settings. -/
  settings : Settings
  /-- The state of the site. -/
  state : Std.Mutex Site.State
  /-- The number of sessions that have not left. -/
  active : IO.Ref Nat
  /-- The number of sessions that are running. -/
  running : IO.Ref Nat
  /-- The signal to stop. -/
  stop : Std.CancellationToken

/-- The readings of the clocks. -/
def moment : IO Moment := do
  return ⟨← IO.monoNanosNow, (← Std.Time.Timestamp.now).toSecondsSinceUnixEpoch.val.toNat⟩

/-! ## Sessions -/

/-- The files that the next step of a session can depend on. -/
def observeFor (settings : Settings) (s : Session) : IO FileTree :=
  match s.phase with
  | .body request 0 =>
    Disk.observe (Site.reads settings.docRoot ⟨settings.contentRoot⟩ settings.rules request)
  | _ => return FileTree.ofEntries [] []

/-- Takes the next step of a session, if there is one. -/
def advance (shared : Shared) (s : Session) : IO (Option Session) := do
  let site := (Server.ofSettings (← observeFor shared.settings s) Codec.stored shared.settings).site
  let now ← moment
  shared.state.atomically do
    match s.step site shared.settings.limits now (← get) with
    | none => return none
    | some (s, state) =>
      set { state with visits := [] }
      return some s

/-- Takes all steps that a session can take, and sends what it writes. -/
partial def settle (shared : Shared) (client : TCP.Socket.Client) (s : Session) :
    Async Session := do
  match ← advance shared s with
  | none => return s
  | some s =>
    if !s.output.isEmpty then client.send s.output.toByteArray
    settle shared client { s with output := [] }

/-- The longest time to sleep at once, in milliseconds. -/
def longestSleep : Nat := 3600000

/-- Waits for the next thing that happens to a session. -/
def await (shared : Shared) (client : TCP.Socket.Client) (s : Session) : Async Session.Event := do
  let left := (s.deadline - (← IO.monoNanosNow)) / 1000000 + 1
  let timer ← Selector.sleep ⟨min left longestSleep⟩
  let events : Array (Selectable Session.Event) := #[
    .case (client.recvSelector 8192) fun data =>
      return match data with
        | some data => .bytes data.data.toList
        | none => .endOfInput,
    .case timer fun _ => return .tick]
  Selectable.one <|
    if s.stopping then events
    else events.push (.case shared.stop.selector fun _ => return .stop)

/-- Serves a connection until its session ends. -/
partial def converse (shared : Shared) (client : TCP.Socket.Client) (s : Session) :
    Async Session := do
  let s ← settle shared client s
  if s.isEnded then return s
  let event ← await shared client s
  converse shared client (s.receive (← moment).clock event)

/-- Reads and drops input, after some that was dropped before, up to a point of time. -/
partial def linger (client : TCP.Socket.Client) (deadline : Time) (dropped : Nat) :
    Async Unit := do
  let now ← IO.monoNanosNow
  if deadline ≤ now || Session.lingerBytes ≤ dropped then return
  let timer ← Selector.sleep ⟨(deadline - now) / 1000000 + 1⟩
  let data ← Selectable.one #[
    .case (client.recvSelector 4096) fun data => return data,
    .case timer fun _ => return none]
  match data with
  | none => return
  | some data => linger client deadline (dropped + data.size)

/-- Closes the connection of a session that has ended. -/
def close (client : TCP.Socket.Client) (s : Session) : Async Unit := do
  client.shutdown
  if s.lingers then linger client ((← IO.monoNanosNow) + Session.lingerTime) 0

/-- Runs the session of a new connection. -/
def serve (shared : Shared) (client : TCP.Socket.Client) : Async Unit := do
  try
    let now ← moment
    let s ← converse shared client (Session.start shared.settings.limits now.clock)
    try close client s catch _ => pure ()
    if Server.hasLeft s then shared.active.modify (· - 1)
  catch _ => shared.active.modify (· - 1)
  shared.running.modify (· - 1)

/-! ## The server -/

/-- Accepts connections until the server is asked to stop. -/
partial def listen (shared : Shared) (listener : TCP.Socket.Server) : Async Unit := do
  let client ← Selectable.one #[
    .case listener.acceptSelector fun client => return some client,
    .case shared.stop.selector fun _ => return none]
  match client with
  | none => return
  | some client =>
    shared.active.modify (· + 1)
    shared.running.modify (· + 1)
    background (serve shared client)
    listen shared listener

/-- Waits until all sessions have ended, but not past a point of time. -/
partial def drain (shared : Shared) (deadline : Time) : Async Unit := do
  if (← shared.running.get) = 0 || deadline ≤ (← IO.monoNanosNow) then return
  sleep 10
  drain shared deadline

/-- Reads the console line by line. -/
partial def console (shared : Shared) : IO Unit := do
  let line ← (← IO.getStdin).getLine
  if line.isEmpty then return
  let now ← moment
  let active ← shared.active.get
  let outcome ← shared.state.atomically do
    let state ← get
    let outcome := Console.runLines now.clock active [Bytes.ofText line] state.cache
    set { state with cache := outcome.cache }
    return outcome
  IO.print outcome.printed
  (← IO.getStdout).flush
  if outcome.stopped then shared.stop.cancel else console shared

/-- Stops the server when a signal comes. -/
def watch (shared : Shared) (signal : Signal) : IO Unit := do
  let waiter ← Signal.Waiter.mk signal false
  discard <| AsyncTask.mapIO (fun _ => shared.stop.cancel) (← waiter.wait)

/-- The listener at the endpoint of some settings. -/
def openEndpoint (settings : Settings) : IO TCP.Socket.Server := do
  let listener ← TCP.Socket.Server.mk
  let host := if settings.isLocal then .ofParts 127 0 0 1 else .ofParts 0 0 0 0
  listener.bind (.v4 ⟨host, settings.port⟩)
  listener.listen 4096
  listener.noDelay
  return listener

/-- The fault of a server whose endpoint could not be opened. -/
def endpointFault (settings : Settings) : IO.Error → Fault
  | .resourceBusy _ _ => Server.addressInUse settings.endpoint
  | e => .listener ("bind " ++ settings.endpoint ++ ": " ++ toString e)

/-- Runs a server until it has stopped. -/
def runServer (settings : Settings) (listener : TCP.Socket.Server) : IO Unit := do
  let state : Site.State := { cache := ⟨settings.cacheSize, []⟩ }
  let shared : Shared :=
    { settings, state := ← Std.Mutex.new state, active := ← IO.mkRef 0, running := ← IO.mkRef 0
      stop := ← Std.CancellationToken.new }
  watch shared .sigint
  watch shared .sigterm
  discard <| IO.asTask (console shared) .dedicated
  Async.block (do
    listen shared listener
    drain shared ((← IO.monoNanosNow) + Clock.seconds settings.shutdownTimeout))

/-! ## Runs -/

/-- The environment of the program. -/
def environment : IO Settings.Environment := do
  return { docRoot := ← IO.getEnv "DOC_ROOT", contentRoot := ← IO.getEnv "CONTENT_ROOT"
           port := ← IO.getEnv "PORT" }

/-- Runs the server with some options. -/
def serveOptions (options : Options) : IO CommandLine.Outcome := do
  let path := options.settingsPath
  match Settings.ofFile (← Disk.observe [path]) path (← environment) with
  | .error why => return .unsettled why
  | .ok settings =>
    match ← (openEndpoint settings).toBaseIO with
    | .error e => return .unbound (endpointFault settings e)
    | .ok listener =>
      runServer settings listener
      return .served ""

/-- Runs the program. -/
def run (arguments : List String) : IO CommandLine.Outcome := do
  match CommandLine.invocation arguments with
  | .error fault => return .misused fault
  | .ok .help => return .shown CommandLine.helpText
  | .ok .version => return .shown CommandLine.versionText
  | .ok (.serve options) => serveOptions options

end ContentServer.Program

/-- Runs the program and ends with its exit code. -/
def main (arguments : List String) : IO UInt32 := do
  let outcome ← ContentServer.Program.run arguments
  IO.print outcome.printed
  IO.eprint outcome.report
  return UInt32.ofNat outcome.exitCode
