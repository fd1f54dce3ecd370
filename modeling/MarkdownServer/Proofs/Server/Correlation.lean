import MarkdownServer.Proofs.Protocol.Reading
import MarkdownServer.Proofs.Server.Turn
import MarkdownServer.Proofs.Stream.Lines
/- How a client tells its replies apart. Every line but a notification gets one reply, in the order of
   the lines, and the reply to a request has the id that stands in the line. A refusal has it only
   where nothing but the name of the method is amiss. -/
set_option autoImplicit false

namespace MarkdownServer

open Json (Value)
open Protocol

theorem reply_member_id (reply : Reply) (id : RequestId) (known : reply.id? = some id) :
    reply.toValue.member? "id" = some id.toValue := by
  cases reply with
  | success own result =>
      cases known
      rfl
  | failure failure =>
      dsimp only [Reply.id?] at known
      simp only [Reply.toValue, known]
      rfl

inductive Answers (line : String) (reply : Reply) : Prop where
  | request (request : Request) (parsed : Message.parse line = .ok (.request request))
      (present : memberOf line "id" = some request.id.toValue)
      (same : reply.toValue.member? "id" = memberOf line "id")
  | refusal (refusal : Refusal) (parsed : Message.parse line = .error refusal) (failure : Failure)
      (failed : reply = .failure failure)
      (code : failure.code.number = if (Value.read line).isOk then -32600 else -32700)

theorem own_id_answers (line : String) (request : Request) (reply : Reply)
    (parsed : Message.parse line = .ok (.request request)) (own : reply.id? = some request.id) :
    Answers line reply := by
  have reading := parse_reading line
  rw [parsed] at reading
  cases reading with
  | request members speaks method named nonempty id asked fits =>
      have present := (member_of_object line "id" members speaks.read).trans asked
      exact .request _ parsed present ((reply_member_id reply id own).trans present.symm)

theorem refusal_answers (line : String) (refusal : Refusal)
    (parsed : Message.parse line = .error refusal) : Answers line (.failure refusal.failure) := by
  refine .refusal refusal parsed _ rfl ?_
  have reading := parse_reading line
  rw [parsed] at reading
  cases reading with
  | notJson fault failed => rw [failed]; rfl
  | notObject value read other => rw [read]; rfl
  | wrongVersion members read version => rw [read]; rfl
  | strangeId members speaks value present strange => rw [speaks.read]; rfl
  | noMethod members speaks mismatch unnamed => rw [speaks.read]; rfl
  | emptyMethod members speaks named => rw [speaks.read]; rfl

def callsForReply (line : String) : Bool :=
  match Message.parse line with
  | .ok (.notification _) => false
  | _ => true

inductive Replied (line : String) : Option Reply → Prop where
  | reply (reply : Reply) (calls : callsForReply line = true) (answers : Answers line reply) :
      Replied line (some reply)
  | silence (method : String) (parsed : Message.parse line = .ok (.notification method)) :
      Replied line none

namespace Server

theorem handle_line_replied (server : Server) (session : Session) (line : String) :
    Replied line (server.handleLine session line).reply := by
  have turn := handle_line_turn server session line
  generalize server.handleLine session line = answer at turn ⊢
  cases turn with
  | refused refusal parsed =>
      exact .reply _ (by simp [callsForReply, parsed]) (refusal_answers line refusal parsed)
  | opened request params parsed asked awaiting log =>
      exact .reply _ (by simp [callsForReply, parsed]) (own_id_answers line request _ parsed rfl)
  | confirmed version parsed initialising log => exact .silence _ parsed
  | ignored method parsed unfit => exact .silence method parsed
  | failed request failure parsed own =>
      exact .reply _ (by simp [callsForReply, parsed]) (own_id_answers line request _ parsed own)
  | served request result log parsed other running =>
      exact .reply _ (by simp [callsForReply, parsed]) (own_id_answers line request _ parsed rfl)

def converse (server : Server) (session : Session) : List String → List Reply
  | [] => []
  | line :: rest =>
      let answer := server.handleLine session line
      answer.reply.toList ++ converse server answer.session rest

theorem converse_answers (server : Server) (session : Session) (lines : List String) :
    List.Forall₂ Answers (lines.filter callsForReply) (converse server session lines) := by
  induction lines generalizing session with
  | nil => exact .nil
  | cons line rest ih =>
      have replied := handle_line_replied server session line
      unfold converse
      dsimp only
      generalize server.handleLine session line = answer at replied ⊢
      cases same : answer.reply with
      | none =>
          rw [same] at replied
          cases replied with
          | silence method parsed =>
              rw [List.filter_cons_of_neg (by simp [callsForReply, parsed])]
              exact ih answer.session
      | some reply =>
          rw [same] at replied
          cases replied with
          | reply _ calls answers =>
              rw [List.filter_cons_of_pos calls]
              exact .cons answers (ih answer.session)

theorem replies_converse (server : Server) (session : Session) (lines : List String) :
    (Stream.replies server session lines).reduceOption =
      converse server session (lines.filter fun line => !Text.allBlank line) := by
  induction lines generalizing session with
  | nil => rfl
  | cons line rest ih =>
      rw [Stream.replies]
      cases blank : Text.allBlank line with
      | true =>
          rw [List.filter_cons_of_neg (by simp [blank])]
          exact ih session
      | false =>
          rw [List.filter_cons_of_pos (by simp [blank]), converse]
          cases same : (server.handleLine session line).reply with
          | none => simpa [same] using ih _
          | some reply => simpa [same] using ih _

structure Correlated (server : Server) (session : Session) : Prop where
  silent : ∀ line, (server.handleLine session line).reply = none ↔
    ∃ method, Message.parse line = .ok (.notification method)
  answered : ∀ line reply, (server.handleLine session line).reply = some reply → Answers line reply
  order : ∀ lines : List String,
    List.Forall₂ Answers (lines.filter callsForReply) (converse server session lines)
  streamed : ∀ lines : List String,
    (lines.foldl (Stream.Service.step server) ⟨session, [], []⟩).replies.reverse =
      converse server session (lines.filter fun line => !Text.allBlank line)

theorem replies_correlated (server : Server) (session : Session) : Correlated server session where
  silent line := by
    have replied := handle_line_replied server session line
    generalize (server.handleLine session line).reply = reply? at replied ⊢
    cases replied with
    | silence method parsed => exact ⟨fun _ => ⟨method, parsed⟩, fun _ => rfl⟩
    | reply reply calls answers =>
        constructor
        · intro silent
          cases silent
        · rintro ⟨method, parsed⟩
          simp [callsForReply, parsed] at calls
  answered line reply given := by
    have replied := handle_line_replied server session line
    rw [given] at replied
    cases replied with
    | reply _ calls answers => exact answers
  order := converse_answers server session
  streamed lines := by
    rw [Stream.replies_step, replies_converse]
    rfl

end Server

structure OnlyUnnamed (line : String) : Prop where
  version : memberOf line "jsonrpc" = some (.text "2.0")
  unnamed : memberOf line "method" = some (.text "")

theorem refusal_id (line : String) (id : RequestId) (present : memberOf line "id" = some id.toValue)
    (fits : id.Fits) (refusal : Refusal) (refused : Message.parse line = .error refusal) :
    refusal.failure.code = .invalidRequest ∧
      (OnlyUnnamed line → refusal.failure.id = some id) ∧
      (¬ OnlyUnnamed line → refusal.failure.id = none) := by
  have readable := of_value_to_value id fits
  have reading := parse_reading line
  rw [refused] at reading
  cases reading with
  | notJson fault failed =>
      simp [memberOf, failed, Except.toOption] at present
  | notObject value read other =>
      have absent : value.member? "id" = none := by cases value <;> first | rfl | cases other
      simp [memberOf, read, Except.toOption, absent] at present
  | wrongVersion members read version =>
      refine ⟨rfl, fun only => absurd ?_ version, fun _ => rfl⟩
      exact (member_of_object line "jsonrpc" members read).symm.trans only.version
  | strangeId members speaks value found strange =>
      rw [member_of_object line "id" members speaks.read, found] at present
      cases present
      rw [readable] at strange
      cases strange
  | noMethod members speaks mismatch unnamed =>
      refine ⟨rfl, fun only => absurd ?_ (unnamed ""), fun _ => rfl⟩
      exact (member_of_object line "method" members speaks.read).symm.trans only.unnamed
  | emptyMethod members speaks named =>
      have object (name : String) := member_of_object line name members speaks.read
      have only : OnlyUnnamed line := ⟨(object "jsonrpc").trans speaks.version, (object "method").trans named⟩
      have same : (Json.lookup? "id" members).bind RequestId.ofValue? = some id := by
        rw [← object "id", present]
        exact readable
      exact ⟨rfl, fun _ => same, fun other => absurd only other⟩

namespace Server

theorem handle_line_refused (server : Server) (session : Session) (line : String)
    (refused : (Message.parse line).isOk = false) :
    ∃ refusal, Message.parse line = .error refusal ∧
      (server.handleLine session line).reply = some (.failure refusal.failure) := by
  cases parsed : Message.parse line with
  | ok message =>
      rw [parsed] at refused
      cases refused
  | error refusal =>
      refine ⟨refusal, rfl, ?_⟩
      unfold handleLine
      rw [parsed]
      rfl

/- A line that is refused although its id can be read: the refusal names the id if nothing but the name
   of the method is missing, and else it names none. -/
theorem refusal_names_unnamed (server : Server) (session : Session) (line : String) (id : RequestId)
    (present : memberOf line "id" = some id.toValue) (fits : id.Fits)
    (refused : (Message.parse line).isOk = false) :
    ∃ failure, (server.handleLine session line).reply = some (.failure failure) ∧
      failure.code = .invalidRequest ∧
      (OnlyUnnamed line → failure.id = some id) ∧ (¬ OnlyUnnamed line → failure.id = none) := by
  obtain ⟨refusal, parsed, replied⟩ := handle_line_refused server session line refused
  exact ⟨refusal.failure, replied, refusal_id line id present fits refusal parsed⟩

def bareServer : Server := ⟨.empty⟩

def unnamedRequest : String := "\x7b\"jsonrpc\":\"2.0\",\"id\":\"a\",\"method\":\"\"\x7d"

theorem refusal_names_unnamed_request :
    ∃ failure, (bareServer.handleLine .awaiting unnamedRequest).reply = some (.failure failure) ∧
      failure.code = .invalidRequest ∧ failure.id = some (.text "a") := by
  have only : OnlyUnnamed unnamedRequest :=
    ⟨(text_some _ _).mp (by decide +kernel), (text_some _ _).mp (by decide +kernel)⟩
  obtain ⟨present, fits⟩ := (id_of_some unnamedRequest (.text "a")).mp (by decide +kernel)
  obtain ⟨failure, replied, code, named, _⟩ :=
    refusal_names_unnamed bareServer .awaiting unnamedRequest (.text "a") present fits
      (by decide +kernel)
  exact ⟨failure, replied, code, named only⟩

def versionlessRequest : String := "\x7b\"id\":1,\"method\":\"test\"\x7d"

theorem versionless_refusal_nameless :
    memberOf versionlessRequest "id" = some (RequestId.number 1).toValue ∧ (RequestId.number 1).Fits ∧
      (Message.parse versionlessRequest).isOk = false ∧
      ∀ (server : Server) (session : Session),
        ∃ failure, (server.handleLine session versionlessRequest).reply = some (.failure failure) ∧
          failure.id = none := by
  obtain ⟨present, fits⟩ := (id_of_some versionlessRequest (.number 1)).mp (by decide +kernel)
  have refused : (Message.parse versionlessRequest).isOk = false := by decide +kernel
  have other : ¬ OnlyUnnamed versionlessRequest := fun only =>
    absurd ((text_some _ _).mpr only.version) (by decide +kernel)
  refine ⟨present, fits, refused, fun server session => ?_⟩
  obtain ⟨refusal, parsed, replied⟩ := handle_line_refused server session versionlessRequest refused
  obtain ⟨_, _, nameless⟩ := refusal_id versionlessRequest (.number 1) present fits refusal parsed
  exact ⟨refusal.failure, replied, nameless other⟩

end Server
end MarkdownServer
