import MarkdownServer.CommandLine
import MarkdownServer.Settings.File
import MarkdownServer.Stream.Serve
import MarkdownServer.Tools.Standard
/- The program as a whole: what a run writes, and how it ends. -/
set_option autoImplicit false

namespace MarkdownServer

open MarkdownServer.Stream (Signal)

structure Program where
  settings : Settings
  level : Log.Level
deriving DecidableEq, Repr

structure Outcome where
  code : Nat
  output : String
  errors : List String
  log : List Log.Record

namespace Outcome

def success (output : String) (log : List Log.Record) : Outcome :=
  ⟨0, output, [], log⟩

def failure (output : String) (log : List Log.Record) : Outcome :=
  ⟨1, output, [], log⟩

def ofStop : CommandLine.Stop → Outcome
  | .help => ⟨0, CommandLine.help, [], []⟩
  | .version => ⟨0, serverName ++ " " ++ serverVersion ++ "\n", [], []⟩
  | .fault f => ⟨2, "", ["error: " ++ f.message], []⟩

def ofFault (fault : Settings.Fault) : Outcome :=
  ⟨1, "", ("Configuration error: " ++ fault.message) ::
    (fault.cause?.map fun cause => "  caused by: " ++ cause).toList, []⟩

end Outcome

namespace Program

def of (command : CommandLine) (settings : Settings) : Program :=
  ⟨command.apply settings, command.level settings.logging.level⟩

def server (program : Program) : Server :=
  ⟨.standard program.settings.options⟩

def themeWarning? (settings : Settings) : Option Log.Record :=
  match settings.converter.theme with
  | none => none
  | some theme =>
    if Wiki.isKnownTheme theme then none
    else some (.warn "Configured default theme is not a known Confluence theme"
      [("theme", .quoted theme)])

def startLog (program : Program) : List Log.Record :=
  .info ("Starting " ++ serverName ++ " server") [
    ("version", .quoted serverVersion),
    ("transport", .plain program.settings.server.transport.name)] ::
  (themeWarning? program.settings).toList ++
  [.info "Tools registered" [("tools", .plain (toString program.server.registry.size))]]

def streamRecord : Log.Record :=
  .info "Serving MCP over stdio" []

def listenLog (address : Address) : List Log.Record :=
  [.info "HTTP transport listening" [("addr", .plain address.toString)],
    .info "Serving MCP over HTTP at /mcp" [("addr", .plain address.toString)]]

def signalRecord (signal : Signal) : Log.Record :=
  .info "Received shutdown signal, stopping HTTP transport" [("signal", .quoted signal.name)]

def endRecord : Log.Record :=
  .info "Server shut down gracefully" []

def failureRecord (reason : String) : Log.Record :=
  .error "Server error" [("error", .plain reason)]

/-- The records that are urgent enough. The level of the settings alone decides: the variable RUST_LOG,
    whose directives would go with it, is taken to be unset. -/
def logged (program : Program) (records : List Log.Record) : List Log.Record :=
  records.filter (Log.Record.passes program.level)

def runStream (program : Program) (input : List UInt8) : Outcome :=
  let report := Stream.run program.server input none
  let log := program.startLog ++ streamRecord :: report.log
  match report.failure with
  | none => .success report.output (program.logged (log ++ [endRecord]))
  | some fault =>
    .failure report.output (program.logged (log ++ [failureRecord fault.message]))

def runHttp (program : Program) (listener : Except String Address) (signal : Signal) : Outcome :=
  match listener with
  | .error reason => .failure "" (program.logged (program.startLog ++ [failureRecord reason]))
  | .ok address =>
    .success "" (program.logged
      (program.startLog ++ listenLog address ++ [signalRecord signal, endRecord]))

structure Environment where
  files : String → Settings.Entry
  home : Option String
  input : List UInt8
  listen : Address → Except String Address
  signal : Signal

def start (arguments : List String) (files : String → Settings.Entry) (home : Option String) :
    Except Outcome Program := do
  let command ← (CommandLine.read arguments).mapError .ofStop
  let settings ← (Settings.loadFrom files command.path home).mapError .ofFault
  return .of command settings

def run (arguments : List String) (around : Environment) : Outcome :=
  match start arguments around.files around.home with
  | .error outcome => outcome
  | .ok program =>
    match program.settings.server.transport with
    | .stdio => program.runStream around.input
    | .http => program.runHttp (around.listen program.settings.server.address) around.signal

end Program
end MarkdownServer
