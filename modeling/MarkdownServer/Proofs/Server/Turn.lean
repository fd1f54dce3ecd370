import MarkdownServer.Proofs.Json.Encoding
import MarkdownServer.Server
/- What one line of a client can come to. Each case of `Turn` names one of them with all that
   decides it, so that no later proof opens the handlers again. -/
set_option autoImplicit false

namespace MarkdownServer

open Protocol

structure Handshake (request : Request) (params : InitializeParams) : Prop where
  method : request.method = "initialize"
  decoded : ∃ value, request.params = some value ∧ InitializeParams.ofValue value = .ok params

def ofTools (request : Request) : Prop :=
  request.method = "tools/list" ∨ request.method = "tools/call"

inductive Turn (session : Session) (line : String) : Answer → Prop where
  | refused (refusal : Refusal) (parsed : Message.parse line = .error refusal) :
      Turn session line ⟨session, some (.failure refusal.failure), []⟩
  | opened (request : Request) (params : InitializeParams)
      (parsed : Message.parse line = .ok (.request request)) (asked : Handshake request params)
      (awaiting : session = .awaiting) (log : List Log.Record) :
      Turn session line ⟨.initialising (Version.negotiate params.version),
        some (.success request.id (Server.handshakeResult (Version.negotiate params.version))), log⟩
  | confirmed (version : Version)
      (parsed : Message.parse line = .ok (.notification "notifications/initialized"))
      (initialising : session = .initialising version) (log : List Log.Record) :
      Turn session line ⟨.running version, none, log⟩
  | ignored (method : String) (parsed : Message.parse line = .ok (.notification method))
      (unfit : method = "notifications/initialized" → ∀ version, session ≠ .initialising version) :
      Turn session line ⟨session, none, []⟩
  | failed (request : Request) (failure : Failure)
      (parsed : Message.parse line = .ok (.request request)) (own : failure.id = some request.id) :
      Turn session line ⟨session, some (.failure failure), []⟩
  | served (request : Request) (result : Json.Value) (log : List Log.Record)
      (parsed : Message.parse line = .ok (.request request))
      (other : request.method ≠ "initialize")
      (running : ofTools request → session.isRunning = true) :
      Turn session line ⟨session, some (.success request.id result), log⟩

namespace Server

theorem params_error_own {α : Type} (request : Request) (topic : String)
    (decode : Json.Value → Except Json.Mismatch α) (failure : Failure)
    (rejected : paramsOf request topic decode = .error failure) : failure.id = some request.id := by
  unfold paramsOf at rejected
  split at rejected
  · cases rejected; rfl
  · split at rejected
    · cases rejected
    · cases rejected; rfl

theorem params_decoded {α : Type} (request : Request) (topic : String)
    (decode : Json.Value → Except Json.Mismatch α) (params : α)
    (accepted : paramsOf request topic decode = .ok params) :
    ∃ value, request.params = some value ∧ decode value = .ok params := by
  unfold paramsOf at accepted
  split at accepted
  · cases accepted
  · rename_i value present
    split at accepted
    · rename_i decoded
      cases accepted
      exact ⟨value, present, decoded⟩
    · cases accepted

theorem require_running_ok (session : Session) (id : RequestId) (done : Unit)
    (passed : requireRunning session id = .ok done) : session.isRunning = true := by
  unfold requireRunning at passed
  split at passed
  · assumption
  · cases passed

theorem require_running_error_own (session : Session) (id : RequestId) (failure : Failure)
    (rejected : requireRunning session id = .error failure) : failure.id = some id := by
  unfold requireRunning at rejected
  split at rejected
  · cases rejected
  · cases rejected; rfl

theorem call_params_ok (session : Session) (request : Request) (params : CallParams)
    (accepted : callParams session request = .ok params) : session.isRunning = true := by
  unfold callParams at accepted
  cases ready : requireRunning session request.id with
  | error failure => rw [ready] at accepted; cases accepted
  | ok done => exact require_running_ok session request.id done ready

theorem call_params_error_own (session : Session) (request : Request) (failure : Failure)
    (rejected : callParams session request = .error failure) : failure.id = some request.id := by
  unfold callParams at rejected
  cases ready : requireRunning session request.id with
  | error first =>
      rw [ready] at rejected
      cases rejected
      exact require_running_error_own session request.id failure ready
  | ok done =>
      rw [ready] at rejected
      cases decoded : paramsOf request "tool call" CallParams.ofValue with
      | error first =>
          simp only [decoded] at rejected
          cases rejected
          exact params_error_own request _ _ failure decoded
      | ok params =>
          simp only [decoded, bind, Except.bind] at rejected
          split at rejected
          · cases rejected
          · cases rejected
            rfl

theorem handshake_turn (session : Session) (line : String) (request : Request)
    (parsed : Message.parse line = .ok (.request request)) (method : request.method = "initialize") :
    Turn session line (handshake session request) := by
  cases session with
  | awaiting =>
      unfold handshake
      dsimp only
      split
      · rename_i failure rejected
        exact .failed request failure parsed (params_error_own request _ _ failure rejected)
      · rename_i params accepted
        exact .opened request params parsed ⟨method, params_decoded request _ _ params accepted⟩ rfl _
  | initialising version => exact .failed request _ parsed rfl
  | running version => exact .failed request _ parsed rfl
  | shuttingDown version => exact .failed request _ parsed rfl

theorem list_tools_turn (server : Server) (session : Session) (line : String) (request : Request)
    (parsed : Message.parse line = .ok (.request request)) (other : request.method ≠ "initialize") :
    Turn session line (server.listTools session request) := by
  unfold listTools
  split
  · rename_i failure rejected
    exact .failed request failure parsed (require_running_error_own session request.id failure rejected)
  · rename_i done passed
    exact .served request _ _ parsed other fun _ => require_running_ok session request.id done passed

theorem call_tool_turn (server : Server) (session : Session) (line : String) (request : Request)
    (parsed : Message.parse line = .ok (.request request)) (other : request.method ≠ "initialize") :
    Turn session line (server.callTool session request) := by
  unfold callTool
  split
  · rename_i failure rejected
    exact .failed request failure parsed (call_params_error_own session request failure rejected)
  · rename_i params accepted
    split
    · rename_i fault _
      exact .failed request _ parsed (by cases fault <;> rfl)
    · rename_i result log _
      rw [Json.Data.encode_of_value]
      exact .served request _ log parsed other fun _ => call_params_ok session request params accepted

theorem handle_request_turn (server : Server) (session : Session) (line : String) (request : Request)
    (parsed : Message.parse line = .ok (.request request)) :
    Turn session line (server.handleRequest session request) := by
  unfold handleRequest
  split
  · rename_i method
    exact handshake_turn session line request parsed method
  rename_i other
  split
  · exact list_tools_turn server session line request parsed other
  rename_i notList
  split
  · exact call_tool_turn server session line request parsed other
  rename_i notCall
  split
  · exact .served request _ _ parsed other fun tools => by
      cases tools with
      | inl list => exact absurd list notList
      | inr call => exact absurd call notCall
  · exact .failed request _ parsed rfl

theorem handle_notification_turn (session : Session) (line method : String)
    (parsed : Message.parse line = .ok (.notification method)) :
    Turn session line (handleNotification session method) := by
  unfold handleNotification
  split
  · rename_i version
    exact .confirmed version parsed rfl _
  · rename_i unfit
    exact .ignored method parsed fun same version initialising => unfit version same initialising

theorem handle_line_turn (server : Server) (session : Session) (line : String) :
    Turn session line (server.handleLine session line) := by
  unfold handleLine
  split
  · rename_i message parsed
    cases message with
    | request request => exact handle_request_turn server session line request parsed
    | notification method => exact handle_notification_turn session line method parsed
  · rename_i refusal parsed
    exact .refused refusal parsed

end Server
end MarkdownServer
