import MarkdownServer.Http.Exchange
import MarkdownServer.Http.Store
import MarkdownServer.Server
import MarkdownServer.Text.Utf8
/- The HTTP service: each message is a POST, and DELETE ends a session. -/
set_option autoImplicit false

namespace MarkdownServer.Http

open Protocol (Message Reply RequestId)

inductive Route where
  | messages
  | health
  | unknown
deriving DecidableEq, Repr

namespace Route

def ofPath (path : String) : Route :=
  if path = "/mcp" then .messages else if path = "/health" then .health else .unknown

def allowed : Route → Option String
  | .messages => some "POST,DELETE"
  | .health => some "GET,HEAD"
  | .unknown => none

end Route

structure Service where
  server : Server
  store : Store

structure Handled where
  response : Response
  service : Service
  log : List Log.Record

namespace Service

def start (server : Server) (limits : Limits) : Service :=
  ⟨server, .empty limits⟩

def limits (service : Service) : Limits :=
  service.store.limits

def reply (service : Service) (response : Response) : Handled :=
  ⟨response, service, []⟩

def sessionError (status : Nat) (id : Option RequestId) (message : String) : Response :=
  .json status (.failure (.invalidRequest id message))

def missingSession (id : Option RequestId) : Response :=
  sessionError 400 id "Missing Mcp-Session-Id header"

def createdRecord (store : Store) (id : String) : Log.Record :=
  .info "Session created" [("session", .plain id), ("open", .plain (toString store.size))]

def openSession (service : Service) (now : Nat) (newId : String) (message : Message) : Handled :=
  let answer := service.server.handle .awaiting message
  match answer.reply with
  | none => ⟨.empty 202, service, answer.log⟩
  | some (.failure f) => ⟨.json 200 (.failure f), service, answer.log⟩
  | some reply =>
    let store := service.store.insert newId answer.session now
    ⟨(Response.json 200 reply).withHeader sessionHeader newId, { service with store },
      answer.log ++ service.store.insertLog now ++ [createdRecord store newId]⟩

def continueSession (service : Service) (now : Nat) (id : String) (message : Message) : Handled :=
  match service.store.touch id now with
  | (none, store) =>
    ⟨sessionError 404 message.id? "Unknown session", { service with store },
      service.store.touchLog id now⟩
  | (some session, store) =>
    let answer := service.server.handle session message
    let service := { service with store := store.update id answer.session }
    match answer.reply with
    | some reply => ⟨.json 200 reply, service, answer.log⟩
    | none => ⟨.empty 202, service, answer.log⟩

def opensSession : Message → Bool
  | .request r => r.method == "initialize"
  | .notification _ => false

def postMessage (service : Service) (now : Nat) (newId : String) (request : Request)
    (body : String) : Handled :=
  match Message.parse body with
  | .error refusal => service.reply (.json 400 (.failure refusal.failure))
  | .ok message =>
    if opensSession message then service.openSession now newId message
    else match request.session? with
    | none => service.reply (missingSession message.id?)
    | some id => service.continueSession now id message

def post (service : Service) (now : Nat) (newId : String) (request : Request) : Handled :=
  if service.limits.body < request.body.length then
    service.reply (.text 413 "Failed to buffer the request body: length limit exceeded")
  else match Text.Utf8.decode request.body with
  | .error fault =>
    service.reply (.text 400 ("Request body didn't contain valid UTF-8: " ++ fault.message))
  | .ok body => service.postMessage now newId request body

def delete (service : Service) (request : Request) : Handled :=
  match request.session? with
  | none => service.reply (missingSession none)
  | some id =>
    match service.store.remove id with
    | (false, _) => service.reply (.empty 404)
    | (true, store) =>
      ⟨.empty 204, { service with store }, [.info "Session terminated" [("session", .quoted id)]]⟩

def answer (service : Service) (now : Nat) (newId : String) (request : Request) : Handled :=
  match Route.ofPath request.path, request.method with
  | .messages, "POST" => service.post now newId request
  | .messages, "DELETE" => service.delete request
  | .health, "GET" => service.reply (.text 200 "ok")
  | .health, "HEAD" => service.reply (.text 200 "")
  | route, _ =>
    match route.allowed with
    | some methods => service.reply ((Response.empty 405).withHeader "allow" methods)
    | none => service.reply (.empty 404)

def anyOrigin (response : Response) : Response :=
  response.withHeader "access-control-allow-origin" "*"

def preflight (route : Route) : Response :=
  let response := anyOrigin (((Response.empty 200).withHeader "access-control-allow-methods" "*"
    ).withHeader "access-control-allow-headers" "*")
  match route.allowed with
  | some methods => response.withHeader "allow" methods
  | none => response

def respond (service : Service) (now : Nat) (newId : String) (request : Request) : Handled :=
  if request.method = "OPTIONS" then service.reply (preflight (.ofPath request.path))
  else
    let handled := service.answer now newId request
    { handled with response :=
        (anyOrigin handled.response).withHeader "access-control-expose-headers" sessionHeader }

end Service
end MarkdownServer.Http
