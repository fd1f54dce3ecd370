import MarkdownServer.Log
import MarkdownServer.Protocol.Message
import MarkdownServer.Protocol.Params
import MarkdownServer.Session
import MarkdownServer.Tools.Registry
/- The server: what one message does to a session, and what is replied. -/
set_option autoImplicit false

namespace MarkdownServer

open Json (Mismatch Value)
open Protocol

def serverName : String := "confluence-mcp"

def serverVersion : String := "0.1.0"

structure Server where
  registry : Tools.Registry

structure Answer where
  session : Session
  reply : Option Reply
  log : List Log.Record

def Answer.refused (session : Session) (failure : Failure) : Answer :=
  ⟨session, some (.failure failure), []⟩

namespace Server

def paramsOf {α : Type} (request : Request) (topic : String)
    (decode : Value → Except Mismatch α) : Except Failure α :=
  match request.params with
  | none => .error (.invalidParams request.id ("Missing " ++ topic ++ " params"))
  | some v =>
    match decode v with
    | .ok params => .ok params
    | .error m =>
      .error (.invalidParams request.id ("Invalid " ++ topic ++ " params: " ++ m.message))

def handshakeResult (version : Version) : Value :=
  .ofMembers [
    ("protocolVersion", .text version.name),
    ("capabilities", .object [("tools", .object [("listChanged", .boolean false)])]),
    ("serverInfo", .object [("name", .text serverName), ("version", .text serverVersion)])]

def initialisingRecord (params : InitializeParams) (version : Version) : Log.Record :=
  .info "Initialising session" [
    ("client", .quoted ((params.client.map Client.name).getD "unknown")),
    ("requested_version", .plain params.version),
    ("negotiated_version", .quoted version.name)]

def handshake (session : Session) (request : Request) : Answer :=
  match session with
  | .awaiting =>
    match paramsOf request "initialize" InitializeParams.ofValue with
    | .error failure => .refused session failure
    | .ok params =>
      let version := Version.negotiate params.version
      ⟨.initialising version, some (.success request.id (handshakeResult version)),
        [initialisingRecord params version]⟩
  | _ => .refused session (.invalidRequest (some request.id) "Server already initialised")

def requireRunning (session : Session) (id : RequestId) : Except Failure Unit :=
  if session.isRunning then .ok ()
  else .error (.invalidRequest (some id) "Server not initialised")

def listTools (server : Server) (session : Session) (request : Request) : Answer :=
  match requireRunning session request.id with
  | .error failure => .refused session failure
  | .ok _ =>
    let tools := server.registry.descriptors.map Tools.Descriptor.toValue
    let result := (Value.object [("tools", .array tools)]).sorted
    ⟨session, some (.success request.id result), []⟩

def callParams (session : Session) (request : Request) : Except Failure CallParams := do
  requireRunning session request.id
  let params ← paramsOf request "tool call" CallParams.ofValue
  if params.arguments.isObject || params.arguments.isNull then return params
  else throw (.invalidParams request.id "Tool arguments must be an object")

def callFailure (id : RequestId) (fault : Tools.Registry.Fault) : Failure :=
  match fault with
  | .unknownTool _ => .invalidParams id fault.message
  | .duplicateTool _ => .internalError id fault.message

def unserialisedRecord (fault : Json.Fault) : Log.Record :=
  .error "Failed to serialise tool call result" [("error", .plain fault.message)]

def callTool (server : Server) (session : Session) (request : Request) : Answer :=
  match callParams session request with
  | .error failure => .refused session failure
  | .ok params =>
    match server.registry.invoke params.name params.arguments with
    | .error fault => .refused session (callFailure request.id fault)
    | .ok (result, log) =>
      match (Json.Data.ofValue result.toValue).encode with
      | .ok value => ⟨session, some (.success request.id value), log⟩
      | .error fault =>
        ⟨session, some (.failure (.internalError request.id "Internal error: failed to serialise result")),
          log ++ [unserialisedRecord fault]⟩

def ping (session : Session) (request : Request) : Answer :=
  ⟨session, some (.success request.id (.object [])), []⟩

def handleRequest (server : Server) (session : Session) (request : Request) : Answer :=
  if request.method = "initialize" then handshake session request
  else if request.method = "tools/list" then server.listTools session request
  else if request.method = "tools/call" then server.callTool session request
  else if request.method = "ping" then ping session request
  else .refused session (.methodNotFound request.id request.method)

def confirmedRecord : Log.Record :=
  .info "Client initialised, session running" []

def handleNotification (session : Session) (method : String) : Answer :=
  match method, session with
  | "notifications/initialized", .initialising _ => ⟨session.confirm, none, [confirmedRecord]⟩
  | _, _ => ⟨session, none, []⟩

def handle (server : Server) (session : Session) : Message → Answer
  | .request request => server.handleRequest session request
  | .notification method => handleNotification session method

def handleLine (server : Server) (session : Session) (line : String) : Answer :=
  match Message.parse line with
  | .ok message => server.handle session message
  | .error refusal => .refused session refusal.failure

end Server
end MarkdownServer
