import Std.Async.Signal
import Std.Async.System
import Std.Http.Server
import MarkdownServer.Http.Service
import MarkdownServer.Http.SessionId
import MarkdownServer.Program
/- The command line program. It reads, writes and waits; what is read and written is settled
   elsewhere. -/
set_option autoImplicit false

namespace MarkdownServer.Main

open Std.Async (Async ContextAsync)

def writeLog (program : Program) (records : List Log.Record) : IO Unit := do
  let errors ← IO.getStderr
  for record in program.logged records do
    errors.putStr (record.line ++ "\n")
  errors.flush

def reasonOf (error : IO.Error) : String :=
  let numbered (code : UInt32) (details : String) : String :=
    details.capitalize ++ " (os error " ++ toString code.toInt32.toInt.natAbs ++ ")"
  match error with
  | .resourceBusy code details | .alreadyExists _ code details
  | .permissionDenied _ code details | .unsupportedOperation code details
  | .invalidArgument _ code details | .otherError code details => numbered code details
  | error => toString error

def entryAt (path : String) : IO Settings.Entry := do
  try
    return .file (← IO.FS.readBinFile path).toList
  catch
    | .noFileOrDirectory _ _ _ => return .missing
    | .inappropriateType _ _ _ => return .unreadable .directory
    | error => return .unreadable (.other (reasonOf error))

def home? : IO (Option String) := do
  try
    return some (← Std.Async.System.getHomeDir).toString
  catch _ => return none

/-- Sets up a run. Only one path is ever looked at. -/
def start (arguments : List String) : IO (Except Outcome Program) := do
  let home ← home?
  match CommandLine.read arguments with
  | .error stop => return .error (.ofStop stop)
  | .ok command =>
    let entry ← match Settings.Source.find? command.path home with
      | some source => entryAt source.path
      | none => pure .missing
    return Program.start arguments (fun _ => entry) home

def awaitOne (native : Std.Async.Signal) (signal : Stream.Signal) : Async Stream.Signal := do
  let waiter ← Std.Async.Signal.Waiter.mk native false
  let _ ← Std.Async.await (← waiter.wait)
  return signal

def awaitSignal : Async Stream.Signal :=
  Async.race (awaitOne .sigint .interrupt) (awaitOne .sigterm .terminate)

def readSegment (input : IO.FS.Stream) : IO (List UInt8) := do
  let mut bytes := #[]
  repeat
    let next := (← input.read 1).toList
    for b in next do
      bytes := bytes.push b
    if next.isEmpty || next.contains Stream.lineFeed then break
  return bytes.toList

def serveLines (program : Program) : IO (Option Text.Utf8.Fault) := do
  let input ← IO.getStdin
  let output ← IO.getStdout
  let server := program.server
  let mut session := Session.awaiting
  repeat
    let segment ← readSegment input
    if segment.isEmpty then break
    match Stream.lineOf segment with
    | .error fault => return some fault
    | .ok line =>
      let service := Stream.Service.step server ⟨session, [], []⟩ line
      session := service.session
      writeLog program service.log
      output.putStr (Stream.written service.replies)
      output.flush
  return none

def serveStream (program : Program) : IO UInt32 := do
  writeLog program [Program.streamRecord]
  let lines ← IO.asTask (serveLines program) Task.Priority.dedicated
  let signal ← awaitSignal.toIO
  match ← IO.waitAny [lines.map Sum.inl, Task.map Sum.inr signal] with
  | .inl (.ok (some fault)) =>
    writeLog program [Program.failureRecord fault.message]
    return 1
  | .inl (.error error) =>
    writeLog program [Program.failureRecord (reasonOf error)]
    return 1
  | .inr (.ok signal) =>
    writeLog program [Stream.signalRecord signal, Program.endRecord]
    return 0
  | _ =>
    writeLog program [Program.endRecord]
    return 0

structure Site where
  program : Program
  service : Std.Mutex Http.Service

def readBody (limit : Nat) (body : Std.Http.Body.Stream) : Async (List UInt8) := do
  let mut bytes := ByteArray.empty
  repeat
    match ← body.recv with
    | none => break
    | some chunk =>
      bytes := bytes ++ chunk.data
      if limit < bytes.size then break
  return bytes.toList

def requestOf (limit : Nat) (request : Std.Http.Request Std.Http.Body.Stream) :
    Async Http.Request := do
  return {
    method := toString request.line.method
    target := toString request.line.uri
    headers := request.line.headers.toList.map fun h => (h.1.value, h.2.value)
    body := ← readBody limit request.body }

def responseOf (response : Http.Response) : Async (Std.Http.Response Std.Http.Body.Full) := do
  let mut headers := Std.Http.Headers.empty
  for (name, value) in response.headers do
    match Std.Http.Header.Name.ofString? name, Std.Http.Header.Value.ofString? value with
    | some name, some value => headers := headers.insert name value
    | _, _ => pure ()
  let status := (Std.Http.Status.ofCode none response.status.toUInt16).getD .internalServerError
  return {
    line := { status, headers }
    body := ← Std.Http.Body.Full.ofString response.body }

def Site.respond (site : Site) (request : Http.Request) : IO Http.Response := do
  let now ← IO.monoNanosNow
  let newId := Http.sessionIdOf (← IO.getRandomBytes 16).toList
  let handled ← site.service.atomically do
    let handled := (← get).respond now newId request
    set handled.service
    return handled
  writeLog site.program handled.log
  return handled.response

instance : Std.Http.Server.Handler Site where
  ResponseBody := Std.Http.Body.Full
  onRequest site request := do
    let request ← (requestOf site.program.settings.limits.body request : Async Http.Request)
    (responseOf (← site.respond request) : Async (Std.Http.Response Std.Http.Body.Full))

def toNative (address : Address) : Std.Net.SocketAddress :=
  match address.host with
  | .v4 octets => .v4 ⟨⟨octets⟩, address.port⟩
  | .v6 groups _ => .v6 ⟨⟨groups⟩, address.port⟩

def ofNative (address : Std.Net.SocketAddress) : Address :=
  match address with
  | .v4 a => ⟨.v4 a.addr.octets, a.port⟩
  | .v6 a => ⟨.v6 a.addr.segments 0, a.port⟩

def serveHttp (program : Program) : Async UInt32 := do
  let settings := program.settings
  let site : Site := ⟨program, ← Std.Mutex.new (.start program.server settings.limits)⟩
  let config : Std.Http.Config := { maxBodySize := Http.greatestSize }
  let listener ← try
      pure (Except.ok (← Std.Http.Server.serve (toNative settings.server.address) site config))
    catch error => pure (Except.error error)
  match listener with
  | .error error =>
    writeLog program [Program.failureRecord (reasonOf error)]
    return 1
  | .ok listener =>
    let address := (listener.localAddr.map ofNative).getD settings.server.address
    writeLog program (Program.listenLog address)
    let signal ← awaitSignal
    writeLog program [Program.signalRecord signal]
    listener.shutdownAndWait
    writeLog program [Program.endRecord]
    return 0

def run (program : Program) : IO UInt32 := do
  writeLog program program.startLog
  match program.settings.server.transport with
  | .stdio => serveStream program
  | .http => (serveHttp program).block

def finish (outcome : Outcome) : IO UInt32 := do
  let errors ← IO.getStderr
  for line in outcome.errors do
    errors.putStr (line ++ "\n")
  let output ← IO.getStdout
  output.putStr outcome.output
  output.flush
  return outcome.code.toUInt32

end MarkdownServer.Main

def main (arguments : List String) : IO UInt32 := do
  match ← MarkdownServer.Main.start arguments with
  | .ok program => MarkdownServer.Main.run program
  | .error outcome => MarkdownServer.Main.finish outcome
