import ContentServer.Bytes
import ContentServer.Cache
import ContentServer.Text.Blank
import ContentServer.Text.Search

/-!
# The console

An operator talks to a running server by lines of text.  Three commands are known: `stop` asks
the server to shut down, `status` shows how busy it is, and `help` lists the commands.  Blanks
around a command do not matter, a blank line is no command, and any other line is answered with a
notice.

The console reads bytes.  It cuts them after each line feed and stops at a `stop` command, at a
line that is not UTF-8, and at the end.  Counting the documents in the cache removes the dead ones
from it.

A run of the console takes place at one moment.  In a *conversation* the server goes on between the
lines, and each command finds what is there when it is given.
-/

namespace ContentServer

/-- What an operator asks for. -/
inductive Command where
  /-- Shut the server down. -/
  | stop
  /-- Show how busy the server is. -/
  | status
  /-- List the commands. -/
  | help
  /-- A line that is no command. -/
  | unknown (text : String)
deriving DecidableEq, Repr

/-- The command on a line, if the line is not blank. -/
def Command.ofLine? (line : String) : Option Command :=
  let text := String.ofList (Text.trim line.toList)
  if text = "" then none
  else if text = "stop" then some .stop
  else if text = "status" then some .status
  else if text = "help" then some .help
  else some (.unknown text)

namespace Console

/-- What is printed when the server is asked to shut down. -/
def stopNotice : String := "停机指令已激活，服务器将在处理完当前请求后关闭...\n"

/-- The list of commands. -/
def helpBlock : String :=
  "== Server Help ==\n" ++
  "stop   - 发出停机信号\n" ++
  "status - 查看当前服务器运行状态\n" ++
  "help   - 显示此帮助信息\n" ++
  "=================\n"

/-- The number of open connections and of documents in the cache. -/
def statusBlock (active cached : Nat) : String :=
  "== Server 状态 ==\n" ++
  "当前活跃连接数: " ++ toString active ++ "\n" ++
  "缓存条目数: " ++ toString cached ++ "\n" ++
  "=================\n"

/-- What is printed for a line that is no command. -/
def unknownNotice (text : String) : String := "无效的命令：" ++ text ++ "\n"

/-- What a command prints, and the cache that it leaves. -/
def perform (now : Time) (active : Nat) (command : Command) (cache : Cache) : String × Cache :=
  match command with
  | .stop => (stopNotice, cache)
  | .help => (helpBlock, cache)
  | .unknown text => (unknownNotice text, cache)
  | .status =>
    let (cached, cache) := cache.size now
    (statusBlock active cached, cache)

/-- The bytes cut after each line feed.  The last line may lack it, and no line is empty. -/
def lines (input : Bytes) : List Bytes :=
  input.foldr (fun b ls => if b = 10 then [b] :: ls else Text.consFirst b ls) []

/-- What a run of the console leaves. -/
structure Outcome where
  /-- All that was printed. -/
  printed : String := ""
  /-- Whether the server was asked to shut down. -/
  stopped : Bool := false
  /-- The cache of the server. -/
  cache : Cache
deriving DecidableEq, Repr

/-- The run of the console over a list of lines, with a number of open connections. -/
def runLines (now : Time) (active : Nat) : List Bytes → Cache → Outcome
  | [], cache => { cache }
  | line :: rest, cache =>
    match Bytes.text? line with
    | none => { cache }
    | some text =>
      match Command.ofLine? text with
      | none => runLines now active rest cache
      | some command =>
        let (printed, cache) := perform now active command cache
        if command = .stop then { printed, stopped := true, cache }
        else
          let tail := runLines now active rest cache
          { tail with printed := printed ++ tail.printed }

/-- The run of the console over its whole input. -/
def run (now : Time) (active : Nat) (input : Bytes) (cache : Cache) : Outcome :=
  runLines now active (lines input) cache

example : lines [97, 10, 10, 98] = [[97, 10], [10], [98]] := by decide

/-! ## Conversations -/

/-- What the console finds in a server. -/
structure Scene where
  /-- The time. -/
  now : Time
  /-- The number of open connections. -/
  active : Nat
  /-- The cache of the server. -/
  cache : Cache
deriving DecidableEq, Repr

/-- What a conversation leaves. -/
structure Conversation where
  /-- All that was printed. -/
  printed : String := ""
  /-- Whether the server was asked to shut down. -/
  stopped : Bool := false
  /-- What the console has left in the server. -/
  scene : Scene
deriving DecidableEq, Repr

/-- The conversation over a list of lines, if the server makes something else of what the console
has left before each of them. -/
def converse (meanwhile : Nat → Scene → Scene) : List Bytes → Scene → Conversation
  | [], scene => { scene }
  | line :: rest, scene =>
    let scene := meanwhile 0 scene
    match Bytes.text? line with
    | none => { scene }
    | some text =>
      match Command.ofLine? text with
      | none => converse (fun i => meanwhile (i + 1)) rest scene
      | some command =>
        let (printed, cache) := perform scene.now scene.active command scene.cache
        let scene := { scene with cache }
        if command = .stop then { printed, stopped := true, scene }
        else
          let tail := converse (fun i => meanwhile (i + 1)) rest scene
          { tail with printed := printed ++ tail.printed }

end Console

end ContentServer
