import ContentServer.Server
import ContentServer.Settings.Document

/-!
# The command line

The program is started with options.

* `-c` or `--config` takes the path of the settings.
* `--log-config` takes the path of the settings for the log.
* `-h` or `--help` shows the options, and `-V` or `--version` the version of the program.

The value of an option can be the next argument, unless that starts with `-` and is more than that.
It can also follow in the same argument, after an equals sign, which may be left out after `-c`.
No option is given twice, there are no other arguments, and nothing follows `--`.  The arguments
are read in order, and the first wrong one, or the first one that asks for help or the version,
decides.

`run` is a whole run of the program, when its whole console input is known and no client connects.
-/

namespace ContentServer

/-- What can be chosen for a run of the server. -/
structure Options where
  /-- The path of the settings, if one is given. -/
  settings : Option String := none
  /-- The path of the settings for the log, if one is given. -/
  log : Option String := none
deriving DecidableEq, Repr

/-- Why some arguments make no sense. -/
inductive UsageFault where
  /-- An argument that the program does not know. -/
  | unexpected (argument : String)
  /-- An option whose value is missing. -/
  | missingValue (option : String)
  /-- An option that is given twice. -/
  | repeated (option : String)
  /-- An option that takes no value has one. -/
  | unwantedValue (option : String)
deriving DecidableEq, Repr

/-- The sentence that reports wrong arguments. -/
def UsageFault.message : UsageFault → String
  | .unexpected argument => "error: unexpected argument " ++ argument ++ "\n"
  | .missingValue option => "error: no value for " ++ option ++ "\n"
  | .repeated option => "error: " ++ option ++ " is given more than once\n"
  | .unwantedValue option => "error: unexpected value for " ++ option ++ "\n"

/-- What the program is started for. -/
inductive Invocation where
  /-- The options are shown. -/
  | help
  /-- The version is shown. -/
  | version
  /-- The server runs. -/
  | serve (options : Options)
deriving DecidableEq, Repr

namespace Options

/-- The path of the settings. -/
def settingsPath (o : Options) : String := o.settings.getD "config/development.toml"

end Options

namespace CommandLine

/-! ## Options -/

/-- An option. -/
inductive Flag where
  | settings | log | help | version
deriving DecidableEq, Repr

/-- The option with a long name. -/
def Flag.ofName? : List Char → Option Flag
  | ['c', 'o', 'n', 'f', 'i', 'g'] => some .settings
  | ['l', 'o', 'g', '-', 'c', 'o', 'n', 'f', 'i', 'g'] => some .log
  | ['h', 'e', 'l', 'p'] => some .help
  | ['v', 'e', 'r', 's', 'i', 'o', 'n'] => some .version
  | _ => none

/-- The option with a letter. -/
def Flag.ofLetter? : Char → Option Flag
  | 'c' => some .settings
  | 'h' => some .help
  | 'V' => some .version
  | _ => none

/-- The long name of an option. -/
def Flag.name : Flag → String
  | .settings => "--config"
  | .log => "--log-config"
  | .help => "--help"
  | .version => "--version"

/-- The options with a value for one that takes a value. -/
def give (flag : Flag) (value : String) (o : Options) : Except UsageFault Options :=
  match flag with
  | .settings => if o.settings.isSome then .error (.repeated flag.name)
    else .ok { o with settings := some value }
  | .log => if o.log.isSome then .error (.repeated flag.name)
    else .ok { o with log := some value }
  | _ => .error (.unwantedValue flag.name)

/-- Whether an argument can be the value of the option before it. -/
def isValue (argument : String) : Bool :=
  argument.toList.head? != some '-' || argument = "-"

/-! ## Arguments -/

/-- An argument, taken apart. -/
inductive Word where
  /-- An option, perhaps with its value. -/
  | flag (flag : Flag) (value : Option String)
  /-- The end of all options. -/
  | endOfFlags
  /-- Anything else. -/
  | other
deriving DecidableEq, Repr

/-- The argument after two dashes. -/
def longWord (cs : List Char) : Word :=
  match Flag.ofName? (cs.takeWhile (· != '=')), cs.dropWhile (· != '=') with
  | none, _ => .other
  | some flag, [] => .flag flag none
  | some flag, _ :: value => .flag flag (some (String.ofList value))

/-- The argument after one dash.  Letters after one that takes no value are not looked at. -/
def shortWord (letter : Char) (cs : List Char) : Word :=
  match Flag.ofLetter? letter with
  | none => .other
  | some .settings =>
    match cs with
    | [] => .flag .settings none
    | '=' :: value => .flag .settings (some (String.ofList value))
    | value => .flag .settings (some (String.ofList value))
  | some flag => .flag flag none

/-- An argument, taken apart. -/
def Word.ofArgument (argument : String) : Word :=
  match argument.toList with
  | ['-', '-'] => .endOfFlags
  | '-' :: '-' :: cs => longWord cs
  | '-' :: letter :: cs => shortWord letter cs
  | _ => .other

/-- What some arguments ask for, after the options that were given before them. -/
def read (o : Options) : List String → Except UsageFault Invocation
  | [] => .ok (.serve o)
  | argument :: rest =>
    match Word.ofArgument argument with
    | .other => .error (.unexpected argument)
    | .endOfFlags =>
      match rest with
      | [] => .ok (.serve o)
      | extra :: _ => .error (.unexpected extra)
    | .flag .help none => .ok .help
    | .flag .version none => .ok .version
    | .flag flag (some value) => give flag value o >>= fun o => read o rest
    | .flag flag none =>
      match rest with
      | value :: rest =>
        if isValue value then give flag value o >>= fun o => read o rest
        else .error (.missingValue flag.name)
      | [] => .error (.missingValue flag.name)
termination_by structural arguments => arguments

/-- What all arguments ask for. -/
def invocation (arguments : List String) : Except UsageFault Invocation := read {} arguments

example : invocation ["-c=a", "--log-config", "b"] = .ok (.serve ⟨some "a", some "b"⟩) := by rfl
example : invocation ["--config", "--help"] = .error (.missingValue "--config") := by rfl

/-! ## Texts -/

/-- The list of options. -/
def helpText : String :=
  "A small content server: static files, cached pages and posts over HTTP/1.1\n\n" ++
  "Usage: cms-server [OPTIONS]\n\n" ++
  "Options:\n" ++
  "  -c, --config <CONFIG>          配置文件路径 [default: config/development.toml]\n" ++
  "      --log-config <LOG_CONFIG>  log4rs 日志配置文件路径 [default: config/log4rs.yaml]\n" ++
  "  -h, --help                     Print help\n" ++
  "  -V, --version                  Print version\n"

/-- The name and the version of the program. -/
def versionText : String := "cms-server 0.1.0\n"

/-! ## Runs -/

/-- How a run of the program ends. -/
inductive Outcome where
  /-- It has shown a text. -/
  | shown (text : String)
  /-- The arguments make no sense. -/
  | misused (fault : UsageFault)
  /-- There are no settings. -/
  | unsettled (why : Settings.Refusal)
  /-- The endpoint could not be opened. -/
  | unbound (fault : Fault)
  /-- The server has run until it was asked to stop. -/
  | served (printed : String)
deriving DecidableEq, Repr

namespace Outcome

/-- The code with which the program ends. -/
def exitCode : Outcome → Nat
  | .shown _ => 0
  | .misused _ => 2
  | .unsettled _ => 1
  | .unbound _ => 1
  | .served _ => 0

/-- What the program prints. -/
def printed : Outcome → String
  | .shown text => text
  | .served text => text
  | _ => ""

/-- What the program reports as wrong. -/
def report : Outcome → String
  | .misused fault => fault.message
  | .unsettled why => why.fault.message ++ "\n"
  | .unbound fault => fault.message ++ "\n"
  | _ => ""

end Outcome

/-- A run of the program with the given arguments, files, environment and console input, to which
no client connects. -/
def run (arguments : List String) (files : FileTree) (codecs : Codecs)
    (environment : Settings.Environment) (now : Moment) (input : Bytes) : Outcome :=
  match invocation arguments with
  | .error fault => .misused fault
  | .ok .help => .shown helpText
  | .ok .version => .shown versionText
  | .ok (.serve options) =>
    match Settings.ofFile files options.settingsPath environment with
    | .error why => .unsettled why
    | .ok settings =>
      .served ((Server.ofSettings files codecs settings).console now input).1.printed

end CommandLine

end ContentServer
