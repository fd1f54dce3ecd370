import MarkdownServer.Http.Service
import MarkdownServer.Proofs.Json.Size
import MarkdownServer.Proofs.Protocol.Reading
import MarkdownServer.Proofs.Text.Utf8
/- Which texts the limit on bodies lets through to the renderer. A call carries its text in full size,
   doubled where every character needs an escape; control characters without an escape of their own take
   four bytes more, and only the envelope has room for those. -/
set_option autoImplicit false

namespace MarkdownServer.Http

open Json (Value unnamed isUnnamed writeText)
open Protocol (RequestId)
open String (utf8Len)

def renderCall (id : Int) (markdown : String) : Value :=
  .object [
    ("id", (RequestId.number id).toValue),
    ("jsonrpc", .text "2.0"),
    ("method", .text "tools/call"),
    ("params", .object [
      ("arguments", .object [("markdown", .text markdown)]),
      ("name", .text "render_markdown")])]

def renderText (id : Int) (markdown : String) : String :=
  (renderCall id markdown).compact

def frame (id : Int) : Nat := (renderText id "").utf8ByteSize

def beforeId : String := "\x7b\"id\":"

def beforeMarkdown : String :=
  ",\"jsonrpc\":\"2.0\",\"method\":\"tools/call\",\"params\":" ++
    "\x7b\"arguments\":\x7b\"markdown\":"

def behindMarkdown : String := "\x7d,\"name\":\"render_markdown\"\x7d\x7d"

theorem render_text_written (id : Int) (markdown : String) :
    renderText id markdown = beforeId ++ toString id ++ beforeMarkdown ++
      String.ofList (writeText markdown) ++ behindMarkdown := by
  apply String.toList_inj.mp
  simp only [renderText, renderCall, RequestId.toValue, Value.compact, Value.writeCompact,
    Json.writeCompactMembers, Json.Number.write, String.toList_append, String.toList_ofList,
    List.append_assoc, List.cons_append]
  rfl

theorem render_text_size (id : Int) (markdown : String) :
    (renderText id markdown).utf8ByteSize =
      107 + (toString id).utf8ByteSize + utf8Len (writeText markdown) := by
  have around :
      beforeId.utf8ByteSize + beforeMarkdown.utf8ByteSize + behindMarkdown.utf8ByteSize = 107 := by
    decide
  rw [render_text_written]
  simp only [String.utf8ByteSize_append, String.utf8ByteSize_ofList]
  omega

theorem frame_size (id : Int) : frame id = 109 + (toString id).utf8ByteSize := by
  have nothing : utf8Len (writeText "") = 2 := by decide
  rw [frame, render_text_size, nothing]
  omega

theorem frame_le (id : Int) (fits : (RequestId.number id).Fits) : frame id ≤ 129 := by
  have digits := Json.integer_size id fits.1 fits.2
  rw [frame_size]
  omega

theorem render_text_size_le (id : Int) (markdown : String) :
    (renderText id markdown).utf8ByteSize ≤
      frame id + 2 * markdown.utf8ByteSize + 4 * unnamed markdown := by
  have written := Json.text_size_le markdown
  rw [render_text_size, frame_size]
  omega

def controls (count : Nat) : String := String.ofList (List.replicate count '\x0b')

theorem controls_size (count : Nat) : (controls count).utf8ByteSize = count :=
  Json.replicate_size count '\x0b' (by decide)

theorem render_controls_size (id : Int) (count : Nat) :
    (renderText id (controls count)).utf8ByteSize = frame id + 6 * count := by
  rw [render_text_size, frame_size, controls, Json.replicate_written_size count '\x0b' (by decide)]
  omega

namespace Service

theorem open_session_status (service : Service) (now : Nat) (newId : String)
    (message : Protocol.Message) : (service.openSession now newId message).response.status ≠ 413 := by
  unfold openSession
  dsimp only
  split <;> simp [Response.empty, Response.json, Response.withHeader]

theorem continue_session_status (service : Service) (now : Nat) (id : String)
    (message : Protocol.Message) : (service.continueSession now id message).response.status ≠ 413 := by
  unfold continueSession
  split
  · simp [sessionError, Response.json]
  · dsimp only
    split <;> simp [Response.empty, Response.json]

theorem post_message_status (service : Service) (now : Nat) (newId body : String)
    (request : Request) : (service.postMessage now newId request body).response.status ≠ 413 := by
  unfold postMessage
  split
  · simp [reply, Response.json]
  · split
    · exact open_session_status service now newId _
    · split
      · simp [reply, missingSession, sessionError, Response.json]
      · exact continue_session_status service now _ _

theorem post_too_large (service : Service) (now : Nat) (newId : String) (request : Request) :
    (service.post now newId request).response.status = 413 ↔
      service.limits.body < request.body.length := by
  unfold post
  split
  · rename_i large
    exact ⟨fun _ => large, fun _ => rfl⟩
  · rename_i small
    refine ⟨fun refused => absurd refused ?_, fun large => absurd large small⟩
    split
    · simp [reply, Response.text]
    · exact post_message_status service now newId _ request

end Service

structure Sends (request : Request) (text : String) : Prop where
  route : Route.ofPath request.path = .messages
  method : request.method = "POST"
  body : request.body = Text.Utf8.encode text

theorem sends_too_large (service : Service) (now : Nat) (newId text : String) (request : Request)
    (sends : Sends request text) :
    (service.respond now newId request).response.status = 413 ↔
      service.limits.body < text.utf8ByteSize := by
  have other : request.method ≠ "OPTIONS" := by rw [sends.method]; decide
  have posted : service.answer now newId request = service.post now newId request := by
    unfold Service.answer
    rw [sends.route, sends.method]
    rfl
  unfold Service.respond
  rw [if_neg other, ← Text.Utf8.encode_length, ← sends.body, ← Service.post_too_large service now newId,
    posted]
  rfl

structure Admitted (inputLimit : Nat) (text : String) : Prop where
  small : text.utf8ByteSize ≤ bodyLimitFor inputLimit
  accepted : ∀ (service : Service) (now : Nat) (newId : String) (request : Request),
    service.limits.body = bodyLimitFor inputLimit → Sends request text →
    (service.respond now newId request).response.status ≠ 413

theorem admitted_small (inputLimit : Nat) (text : String)
    (small : text.utf8ByteSize ≤ bodyLimitFor inputLimit) : Admitted inputLimit text := by
  refine ⟨small, fun service now newId request limit sends refused => ?_⟩
  rw [sends_too_large service now newId text request sends, limit] at refused
  omega

theorem few_controls_admitted (inputLimit : Nat) (id : Int) (markdown : String)
    (within : markdown.utf8ByteSize ≤ inputLimit) (few : frame id + 4 * unnamed markdown ≤ envelope)
    (possible : (renderText id markdown).utf8ByteSize ≤ greatestSize) :
    Admitted inputLimit (renderText id markdown) := by
  have size := render_text_size_le id markdown
  apply admitted_small
  unfold bodyLimitFor
  omega

/- A call is admitted if the envelope has room for it and for four bytes more for each of the control
   characters that have no escape of their own. Under a limit all calls are admitted exactly if the
   envelope has room for as many of them as the limit allows. -/
structure AdmitsCalls (inputLimit : Nat) (id : Int) : Prop where
  few : ∀ markdown : String, markdown.utf8ByteSize ≤ inputLimit →
    frame id + 4 * unnamed markdown ≤ envelope →
    (renderText id markdown).utf8ByteSize ≤ greatestSize → Admitted inputLimit (renderText id markdown)
  all : (∀ markdown : String, markdown.utf8ByteSize ≤ inputLimit →
    Admitted inputLimit (renderText id markdown)) ↔ frame id + 4 * inputLimit ≤ envelope
  frame : (RequestId.number id).Fits → frame id ≤ 129

theorem calls_admitted (inputLimit : Nat) (id : Int) : AdmitsCalls inputLimit id where
  few := few_controls_admitted inputLimit id
  all := by
    constructor
    · intro all
      have small := (all (controls inputLimit) (Nat.le_of_eq (controls_size inputLimit))).small
      rw [render_controls_size] at small
      unfold bodyLimitFor at small
      omega
    · intro room markdown within
      have controls := Json.unnamed_le_size markdown
      have size := render_text_size_le id markdown
      have possible : envelope + 2 * inputLimit ≤ greatestSize := by
        unfold envelope at room ⊢
        unfold greatestSize
        omega
      exact few_controls_admitted inputLimit id markdown within (by omega) (by omega)
  frame := frame_le id

theorem calls_admitted_coloured :
    Admitted 64 (renderText 7 "\x1b[1mbold\x1b[0m \"and\" plain\n") := by
  have size := render_text_size_le 7 "\x1b[1mbold\x1b[0m \"and\" plain\n"
  have bytes : "\x1b[1mbold\x1b[0m \"and\" plain\n".utf8ByteSize = 25 := by decide
  have two : unnamed "\x1b[1mbold\x1b[0m \"and\" plain\n" = 2 := by decide
  have digits : frame 7 = 110 := by rw [frame_size]; decide
  rw [bytes, two, digits] at size
  refine (calls_admitted 64 7).few _ ?_ ?_ ?_
  · rw [bytes]; decide
  · rw [two, digits]; decide
  · exact Nat.le_trans size (by decide)

theorem controls_refused :
    (controls 16384).utf8ByteSize ≤ 16384 ∧
      bodyLimitFor 16384 < (renderText 1 (controls 16384)).utf8ByteSize ∧
      ∀ (service : Service) (now : Nat) (newId : String) (request : Request),
        service.limits = .forInput 16384 → Sends request (renderText 1 (controls 16384)) →
        (service.respond now newId request).response.status = 413 := by
  have large : bodyLimitFor 16384 < (renderText 1 (controls 16384)).utf8ByteSize := by
    rw [render_controls_size, frame_size]
    decide
  refine ⟨Nat.le_of_eq (controls_size 16384), large, fun service now newId request limits sends => ?_⟩
  rw [sends_too_large service now newId _ request sends, limits]
  exact large

end MarkdownServer.Http
