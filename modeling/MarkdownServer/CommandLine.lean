import MarkdownServer.Log
import MarkdownServer.Settings.Basic
/- The command line. Options are taken from left to right. The value of an option, and the path,
   are looked at only when the next option or path is reached, or the end. -/
set_option autoImplicit false

namespace MarkdownServer

structure CommandLine where
  path : Option String := none
  transport : Option Transport := none
  address : Option Address := none
  verbosity : Nat := 0
  quiet : Bool := false
deriving DecidableEq, Repr

namespace CommandLine

inductive Setting where
  | path
  | transport
  | address
deriving DecidableEq, Repr

inductive Flag where
  | verbose
  | quiet
  | help
  | version
deriving DecidableEq, Repr

inductive Switch where
  | flag (flag : Flag)
  | setting (setting : Setting)
deriving DecidableEq, Repr

inductive Fault where
  | unknownArgument (argument : String)
  | missingValue (setting : Setting)
  | badValue (setting : Setting) (value : String)
  | repeated (switch : Switch)
  | needlessValue (flag : Flag) (value : String)
deriving DecidableEq, Repr

inductive Stop where
  | help
  | version
  | fault (fault : Fault)
deriving DecidableEq, Repr

def long? (name : String) : Option Switch :=
  match name with
  | "transport" => some (.setting .transport)
  | "bind" => some (.setting .address)
  | "verbose" => some (.flag .verbose)
  | "quiet" => some (.flag .quiet)
  | "help" => some (.flag .help)
  | "version" => some (.flag .version)
  | _ => none

def short? (letter : Char) : Option Switch :=
  match letter with
  | 't' => some (.setting .transport)
  | 'b' => some (.setting .address)
  | 'v' => some (.flag .verbose)
  | 'q' => some (.flag .quiet)
  | 'h' => some (.flag .help)
  | 'V' => some (.flag .version)
  | _ => none

def Setting.name : Setting → String
  | .path => "[CONFIG_FILE]"
  | .transport => "--transport"
  | .address => "--bind"

def Flag.name : Flag → String
  | .verbose => "--verbose"
  | .quiet => "--quiet"
  | .help => "--help"
  | .version => "--version"

def Switch.name : Switch → String
  | .flag f => f.name
  | .setting s => s.name

def Fault.message : Fault → String
  | .unknownArgument argument => "unexpected argument: " ++ argument
  | .missingValue setting => "a value is required for " ++ setting.name
  | .badValue setting value => "invalid value for " ++ setting.name ++ ": " ++ value
  | .repeated switch => switch.name ++ " cannot be used more than once"
  | .needlessValue flag value => "unexpected value for " ++ flag.name ++ ": " ++ value

def help : String :=
"MCP server for Markdown rendering and Confluence conversion

Usage: confluence-mcp [OPTIONS] [CONFIG_FILE]

Arguments:
  [CONFIG_FILE]  Path to configuration file

Options:
  -t, --transport <TRANSPORT>  Transport to serve (overrides the configuration file)
                               [possible values: http, stdio]
  -b, --bind <ADDR>            HTTP listen address (overrides the configuration file)
  -v, --verbose...             Increase logging verbosity (-v for info, -vv for debug,
                               -vvv for trace)
  -q, --quiet                  Decrease logging verbosity (only show errors)
  -h, --help                   Print help
  -V, --version                Print version
"

def verbosityCap : Nat := 255

def isSet (command : CommandLine) : Setting → Bool
  | .path => command.path.isSome
  | .transport => command.transport.isSome
  | .address => command.address.isSome

def assign (command : CommandLine) (setting : Setting) (value : String) :
    Except Fault CommandLine :=
  match setting with
  | .path =>
    if value.isEmpty then .error (.badValue .path value)
    else .ok { command with path := some value }
  | .transport =>
    if value = Transport.http.name then .ok { command with transport := some .http }
    else if value = Transport.stdio.name then .ok { command with transport := some .stdio }
    else .error (.badValue .transport value)
  | .address =>
    match Address.parse? value with
    | some address => .ok { command with address := some address }
    | none => .error (.badValue .address value)

structure State where
  command : CommandLine
  /-- The setting whose value was not looked at yet, and the value unless it is still to come. -/
  pending : Option (Setting × Option String)
deriving DecidableEq, Repr

namespace State

def start : State := ⟨{}, none⟩

def settle (state : State) : Except Stop CommandLine :=
  match state.pending with
  | none => .ok state.command
  | some (setting, none) => .error (.fault (.missingValue setting))
  | some (setting, some value) =>
    if state.command.isSet setting then .error (.fault (.repeated (.setting setting)))
    else (state.command.assign setting value).mapError .fault

def await (state : State) (setting : Setting) : Except Stop State := do
  return ⟨← state.settle, some (setting, none)⟩

def give (state : State) (setting : Setting) (value : String) : Except Stop State := do
  let command ← state.settle
  return ⟨← settle ⟨command, some (setting, some value)⟩, none⟩

def raise (state : State) (flag : Flag) : Except Stop State := do
  let command ← state.settle
  match flag with
  | .verbose =>
    return ⟨{ command with verbosity := min verbosityCap (command.verbosity + 1) }, none⟩
  | .quiet =>
    if command.quiet then throw (.fault (.repeated (.flag .quiet)))
    return ⟨{ command with quiet := true }, none⟩
  | .help => throw .help
  | .version => throw .version

def takeLong (state : State) (name : String) (value : Option String) : Except Stop State :=
  match long? name, value with
  | none, _ => .error (.fault (.unknownArgument ("--" ++ name)))
  | some (.flag flag), none => state.raise flag
  | some (.flag flag), some value => .error (.fault (.needlessValue flag value))
  | some (.setting setting), none => state.await setting
  | some (.setting setting), some value => state.give setting value

def takeShort (state : State) : List Char → Except Stop State
  | [] => .ok state
  | letter :: rest =>
    match short? letter with
    | none => .error (.fault (.unknownArgument ("-" ++ letter.toString)))
    | some (.flag flag) =>
      match state.raise flag with
      | .ok state => takeShort state rest
      | .error stop => .error stop
    | some (.setting setting) =>
      match rest with
      | [] => state.await setting
      | '=' :: value => state.give setting (String.ofList value)
      | value => state.give setting (String.ofList value)

def takePath (state : State) (argument : String) : Except Stop State :=
  if state.command.path.isSome || state.pending.any (·.1 == .path) then
    .error (.fault (.unknownArgument argument))
  else do return ⟨← state.settle, some (.path, some argument)⟩

def takePlain (state : State) (argument : String) : Except Stop State :=
  match state.pending with
  | some (setting, none) => .ok { state with pending := some (setting, some argument) }
  | _ => state.takePath argument

def take (state : State) (argument : String) : Except Stop State :=
  match argument.toList with
  | '-' :: '-' :: option =>
    let name := option.takeWhile (· != '=')
    let value := if name.length = option.length then none else some (option.drop (name.length + 1))
    state.takeLong (String.ofList name) (value.map String.ofList)
  | '-' :: letter :: letters => state.takeShort (letter :: letters)
  | _ => state.takePlain argument

end State

def readFrom (state : State) : List String → Except Stop State
  | [] => .ok state
  | argument :: rest =>
    if argument = "--" then rest.foldlM State.takePath state
    else do readFrom (← state.take argument) rest

def read (arguments : List String) : Except Stop CommandLine := do
  (← readFrom .start arguments).settle

def apply (command : CommandLine) (settings : Settings) : Settings :=
  { settings with
    server.transport := command.transport.getD settings.server.transport
    server.address := command.address.getD settings.server.address }

def level (command : CommandLine) (configured : String) : Log.Level :=
  if command.quiet then .error
  else match command.verbosity with
  | 0 => (Log.Level.ofName? configured).getD .warn
  | 1 => .info
  | 2 => .debug
  | _ => .trace

end CommandLine
end MarkdownServer
