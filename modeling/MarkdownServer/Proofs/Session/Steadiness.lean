import MarkdownServer.Proofs.Session.Lifecycle
/- When a line changes the session. Only a handshake that succeeds and its confirmation do; whatever
   fails and whatever only asks leaves the session as it is, and leaves no trace in a run. -/
set_option autoImplicit false

namespace MarkdownServer.Session

open Protocol

inductive Changes (session : Session) (line : String) : Answer → Prop where
  | opened (version : Version) (awaiting : session = .awaiting) (request : Request)
      (parsed : Message.parse line = .ok (.request request)) (method : request.method = "initialize")
      (result : Json.Value)
      (reported : result.member? "protocolVersion" = some (.text version.name))
      (log : List Log.Record) :
      Changes session line ⟨.initialising version, some (.success request.id result), log⟩
  | confirmed (version : Version) (initialising : session = .initialising version)
      (parsed : Message.parse line = .ok (.notification "notifications/initialized"))
      (log : List Log.Record) : Changes session line ⟨.running version, none, log⟩

theorem handshake_reports (version : Version) :
    (Server.handshakeResult version).member? "protocolVersion" = some (.text version.name) := by
  cases version <;> rfl

theorem changes_session (session : Session) (line : String) (answer : Answer)
    (changes : Changes session line answer) : answer.session ≠ session := by
  cases changes with
  | opened version awaiting => simp [awaiting]
  | confirmed version initialising => simp [initialising]

theorem handle_line_changes (server : Server) (session : Session) (line : String)
    (changed : (server.handleLine session line).session ≠ session) :
    Changes session line (server.handleLine session line) := by
  have turn := Server.handle_line_turn server session line
  generalize server.handleLine session line = answer at turn changed ⊢
  cases turn with
  | opened request params parsed asked awaiting log =>
      exact .opened _ awaiting request parsed asked.method _ (handshake_reports _) log
  | confirmed version parsed initialising log => exact .confirmed version initialising parsed log
  | refused refusal parsed => exact absurd rfl changed
  | ignored method parsed unfit => exact absurd rfl changed
  | failed request failure parsed own => exact absurd rfl changed
  | served request result log parsed other running => exact absurd rfl changed

def isHarmless (line : String) : Bool :=
  match Message.parse line with
  | .ok (.request request) => request.method != "initialize"
  | .ok (.notification method) => method != "notifications/initialized"
  | .error _ => true

theorem harmless_keeps (server : Server) (session : Session) (line : String)
    (harmless : isHarmless line = true) : (server.handleLine session line).session = session := by
  by_contra changed
  have changes := handle_line_changes server session line changed
  generalize server.handleLine session line = answer at changes
  cases changes with
  | opened version awaiting request parsed method =>
      simp [isHarmless, parsed, method] at harmless
  | confirmed version initialising parsed =>
      simp [isHarmless, parsed] at harmless

theorem failed_keeps (server : Server) (session : Session) (line : String) (failure : Failure)
    (failed : (server.handleLine session line).reply = some (.failure failure)) :
    (server.handleLine session line).session = session := by
  by_contra changed
  have changes := handle_line_changes server session line changed
  generalize server.handleLine session line = answer at changes failed
  cases changes with
  | opened => cases failed
  | confirmed => cases failed

def isHarmlessAction : Action → Bool
  | .line text => isHarmless text
  | .shutDown => false

theorem failed_line_erased (server : Server) (past future : List Action) (text : String)
    (failure : Failure) (failed : replyTo server past (.line text) = some (.failure failure)) :
    after server (past ++ .line text :: future) = after server (past ++ future) := by
  have kept : (act server (after server past) (.line text)).1 = after server past :=
    failed_keeps server (after server past) text failure failed
  rw [after_append, after_append, List.foldl_cons, kept]

theorem harmless_lines_erased (server : Server) (past : List Action) :
    after server (past.filter fun action => !isHarmlessAction action) = after server past := by
  induction past using List.reverseRecOn with
  | nil => rfl
  | append_singleton past action ih =>
      rw [List.filter_append, after_concat]
      cases harmless : isHarmlessAction action with
      | false => rw [List.filter_cons_of_pos (by simp [harmless]), List.filter_nil, after_concat, ih]
      | true =>
          rw [List.filter_cons_of_neg (by simp [harmless]), List.filter_nil, List.append_nil, ih]
          cases action with
          | shutDown => cases harmless
          | line text => exact (harmless_keeps server (after server past) text harmless).symm

structure Steady (server : Server) (session : Session) (line : String) : Prop where
  changed : (server.handleLine session line).session ≠ session ↔
    Changes session line (server.handleLine session line)
  failed : ∀ failure, (server.handleLine session line).reply = some (.failure failure) →
    (server.handleLine session line).session = session
  harmless : isHarmless line = true → (server.handleLine session line).session = session

theorem session_steady (server : Server) (session : Session) (line : String) :
    Steady server session line where
  changed := ⟨handle_line_changes server session line, changes_session session line _⟩
  failed := failed_keeps server session line
  harmless := harmless_keeps server session line

end MarkdownServer.Session
