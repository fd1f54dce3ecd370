import MarkdownServer.Proofs.Json.Compact
import MarkdownServer.Proofs.Protocol.Reading
import MarkdownServer.Proofs.Server.Turn
/- A reply as a line of JSON: its members in their order without white space, and a text from which it
   can be read back. -/
set_option autoImplicit false

namespace MarkdownServer

open Json (Proper ReadsBack Value deepest)
open Protocol

-- Every reply is written compactly. It reads back as it is if its result has no double that reads as its
-- neighbour, and is nested no deeper than texts are read; a failure always does.
structure Tells (reply : Reply) (json : String) : Prop where
  compact : Json.Packed reply.toValue json.toList
  failure : ∀ failure, reply = .failure failure → Value.read json = .ok reply.toValue.sorted
  success : ∀ id result, reply = .success id result → Proper ReadsBack (deepest - 1) result →
    Value.read json = .ok reply.toValue.sorted

theorem id_proper (levels : Nat) (id : RequestId) (fits : id.Fits) : Proper ReadsBack levels id.toValue := by
  cases id with
  | number i => exact .integer levels i fits.1 (fits.2.trans (by decide))
  | text s => exact .text levels s

theorem id_member_proper (levels : Nat) (id? : Option RequestId) (fits : ∀ id, id? = some id → id.Fits) :
    ∀ m ∈ Reply.idMember id?, Proper ReadsBack levels m.2 := by
  cases id? with
  | none => exact List.forall_mem_nil _
  | some id => exact List.forall_mem_singleton.mpr (id_proper levels id (fits id rfl))

theorem error_proper (failure : Failure) : Proper ReadsBack (deepest - 1)
    (.object [("code", .number (.integer failure.code.number)), ("message", .text failure.message)]) := by
  refine .object (deepest - 2) _ (List.pairwise_pair.mpr (show "code" < "message" by decide)) ?_
  simp only [List.forall_mem_cons]
  refine ⟨.integer _ _ ?_ ?_, .text _ _, List.forall_mem_nil _⟩
  · cases failure.code <;> decide
  · cases failure.code <;> decide

theorem reply_tells (reply : Reply) (fits : ∀ id, reply.id? = some id → id.Fits) :
    Tells reply reply.json := by
  have read (body : String × Value) (same : reply.toValue =
      .object (Reply.versionMember :: Reply.idMember reply.id? ++ [body]))
      (proper : Proper ReadsBack (deepest - 1) body.2) :
      Value.read reply.json = .ok reply.toValue.sorted := by
    rw [Reply.json, same]
    apply Json.object_reads_back
    rw [List.cons_append, List.forall_mem_cons, List.forall_mem_append]
    exact ⟨.text _ _, id_member_proper _ _ fits, List.forall_mem_singleton.mpr proper⟩
  constructor
  case compact =>
    rw [Reply.json, Value.compact, String.toList_ofList]
    exact Json.compact_packed reply.toValue
  case failure =>
    rintro failure rfl
    exact read _ rfl (error_proper failure)
  case success =>
    rintro id result rfl proper
    exact read ("result", result) rfl proper

theorem request_fits (line : String) (request : Request)
    (parsed : Message.parse line = .ok (.request request)) : request.id.Fits := by
  have reading := parse_reading line
  rw [parsed] at reading
  cases reading with
  | request members speaks method named nonempty id present fits => exact fits

theorem refusal_fits (line : String) (refusal : Refusal) (parsed : Message.parse line = .error refusal)
    (id : RequestId) (known : refusal.failure.id = some id) : id.Fits := by
  have reading := parse_reading line
  rw [parsed] at reading
  cases reading with
  | notJson | notObject | wrongVersion | strangeId | noMethod => cases known
  | emptyMethod members speaks named =>
      obtain ⟨value, _, readable⟩ := Option.bind_eq_some_iff.mp known
      exact (of_value_some value id readable).2

theorem handle_line_fits (server : Server) (session : Session) (line : String) (reply : Reply)
    (replied : (server.handleLine session line).reply = some reply) (id : RequestId)
    (known : reply.id? = some id) : id.Fits := by
  have turn := server.handle_line_turn session line
  generalize server.handleLine session line = answer at turn replied
  cases turn with
  | refused refusal parsed => cases replied; exact refusal_fits line refusal parsed id known
  | opened request params parsed => cases replied; cases known; exact request_fits line request parsed
  | confirmed | ignored => cases replied
  | failed request failure parsed own =>
      cases replied
      cases own.symm.trans known
      exact request_fits line request parsed
  | served request result log parsed => cases replied; cases known; exact request_fits line request parsed

end MarkdownServer
