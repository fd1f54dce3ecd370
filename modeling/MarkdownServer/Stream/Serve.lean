import MarkdownServer.Server
import MarkdownServer.Stream.Line
import MarkdownServer.Text.Blank
/- Serving one session over a pair of streams, one message a line. -/
set_option autoImplicit false

namespace MarkdownServer.Stream

open Protocol (Reply)

structure Service where
  session : Session
  replies : List Reply
  log : List Log.Record

def Service.start : Service :=
  ⟨.awaiting, [], []⟩

def Service.step (server : Server) (service : Service) (line : String) : Service :=
  if Text.allBlank line then service
  else
    let answer := server.handleLine service.session line
    ⟨answer.session, answer.reply.toList ++ service.replies, service.log ++ answer.log⟩

structure Report where
  output : String
  failure : Option Text.Utf8.Fault
  log : List Log.Record

def written (replies : List Reply) : String :=
  replies.foldl (fun s reply => s ++ reply.json ++ "\n") ""

def serve (server : Server) (bytes : List UInt8) : Report :=
  let (lines, failure) := lines bytes
  let service := lines.foldl (Service.step server) .start
  ⟨written service.replies.reverse, failure, service.log⟩

inductive Signal where
  | interrupt
  | terminate
deriving DecidableEq, Repr, Inhabited

def Signal.name : Signal → String
  | .interrupt => "SIGINT"
  | .terminate => "SIGTERM"

def signalRecord (signal : Signal) : Log.Record :=
  .info "Received shutdown signal, stopping stdio transport" [("signal", .quoted signal.name)]

inductive Stop where
  | ended
  | failed (fault : Text.Utf8.Fault)
  | waiting

def Stop.failure? : Stop → Option Text.Utf8.Fault
  | .failed fault => some fault
  | .ended | .waiting => none

/-- Serves one line after the other as far as the bytes go that have come. A session that is
    shutting down takes no more lines; the end of the input shuts it down. -/
def Service.drain (server : Server) (ended : Bool) (service : Service) (bytes : List UInt8) :
    Service × Stop :=
  if service.session.isShutDown then (service, .ended)
  else match next : nextLine ended bytes with
  | .line line rest =>
    have := next_line_shorter ended bytes rest line next
    drain server ended (service.step server line) rest
  | .ended => ({ service with session := service.session.shutDown }, .ended)
  | .failed fault => (service, .failed fault)
  | .waiting => (service, .waiting)
termination_by bytes.length

def run (server : Server) (bytes : List UInt8) (signal : Option Signal) : Report :=
  let (service, stop) := Service.drain server signal.isNone .start bytes
  let log :=
    match stop, signal with
    | .waiting, some signal => service.log ++ [signalRecord signal]
    | _, _ => service.log
  ⟨written service.replies.reverse, stop.failure?, log⟩

end MarkdownServer.Stream
