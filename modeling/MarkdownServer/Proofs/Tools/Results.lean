import MarkdownServer.Proofs.Json.Encoding
import MarkdownServer.Proofs.Json.RoundTrip
import MarkdownServer.Tools.Tool
/- The result of a call as the client sees it. Where a call gives a JSON value, its text and its
   structured content are that value. -/
set_option autoImplicit false

namespace MarkdownServer.Tools

open Json (Value)

theorem output_of_value (v : Value) : Output.ofData (.ofValue v) = .ok (.json v.sorted) := by
  rw [Output.ofData, Json.Data.encode_of_value]

theorem outputs_of_values {α : Type} (found : Except Fault α) (value : α → Value) :
    (found.bind fun a => Output.ofData (.ofValue (value a))) =
      found.map fun a => .json (value a).sorted := by
  cases found with
  | error fault => rfl
  | ok a => exact output_of_value (value a)

namespace CallResult

def shownText (s : String) : Value :=
  .array [.object [("text", .text s), ("type", .text "text")]]

def sentMembers : Except Fault Output → List (String × Value)
  | .ok (.text s) => [("content", shownText s)]
  | .ok (.json v) => [("content", shownText v.pretty), ("structuredContent", v.sorted)]
  | .error fault => [("content", shownText fault.message), ("isError", .boolean true)]

theorem content_sorted (s : String) : (Value.array [textItem s]).sorted = shownText s := by
  have before : "text" < "type" := by decide
  simp only [Value.sorted, Value.sortedItems, Value.sortedMembers, textItem, Value.ofMembers,
    List.foldl_cons, List.foldl_nil, Json.insertMember, if_pos before, shownText]

theorem sorted_pair (m n : String × Value) (before : m.1 < n.1) :
    (Value.object [m, n]).sorted = .object [(m.1, m.2.sorted), (n.1, n.2.sorted)] :=
  Json.sorted_object [m, n] (List.pairwise_pair.mpr before)

theorem result_sent (outcome : Except Fault Output) :
    (ofResult outcome).toValue.sorted = .object (sentMembers outcome) := by
  match outcome with
  | .ok (.text s) =>
    have sorted := Json.sorted_object [("content", .array [textItem s])] (List.pairwise_singleton _ _)
    rwa [List.map_singleton, content_sorted] at sorted
  | .ok (.json v) =>
    have sorted := sorted_pair ("content", .array [textItem v.pretty]) ("structuredContent", v)
      (show "content" < "structuredContent" by decide)
    rwa [content_sorted] at sorted
  | .error fault =>
    have sorted := sorted_pair ("content", .array [textItem fault.message]) ("isError", .boolean true)
      (show "content" < "isError" by decide)
    rwa [content_sorted, Value.sorted] at sorted

structure Told (outcome : Except Fault Output) (result : Value) : Prop where
  serialised : result = (ofResult outcome).toValue.sorted
  text : ∀ s, outcome = .ok (.text s) → result.member? "content" = some (shownText s)
  json : ∀ v, outcome = .ok (.json v) → result.member? "content" = some (shownText v.pretty)
  fault : ∀ fault, outcome = .error fault → result.member? "content" = some (shownText fault.message)
  isError : ∀ v, result.member? "isError" = some v ↔
    v = .boolean true ∧ ∃ fault, outcome = .error fault
  structured : ∀ v, result.member? "structuredContent" = some v ↔
    ∃ output, outcome = .ok (.json output) ∧ v = output.sorted

theorem result_told (outcome : Except Fault Output) :
    Told outcome (ofResult outcome).toValue.sorted := by
  have member : ∀ name, (ofResult outcome).toValue.sorted.member? name =
      Json.lookup? name (sentMembers outcome) := fun name => by rw [result_sent, Value.member?]
  constructor
  case serialised => rfl
  case text => rintro s rfl; rw [member]; rfl
  case json => rintro v rfl; rw [member]; rfl
  case fault => rintro fault rfl; rw [member]; rfl
  case isError =>
    intro v
    rw [member]
    rcases outcome with fault | s | output
    · simp [sentMembers, Json.lookup?, eq_comm]
    · simp [sentMembers, Json.lookup?]
    · simp [sentMembers, Json.lookup?]
  case structured =>
    intro v
    rw [member]
    rcases outcome with fault | s | output
    · simp [sentMembers, Json.lookup?]
    · simp [sentMembers, Json.lookup?]
    · simp [sentMembers, Json.lookup?, eq_comm]

structure Agree (v : Value) (result : CallResult) (text : String) : Prop where
  single : result.texts = [text]
  read : Value.read text = .ok v
  structured : result.structured = some v
  success : result.isError = false
  sent : result.toValue.sorted =
    .object [("content", shownText text), ("structuredContent", v)]

theorem json_output_agrees (v : Value) (proper : Json.Proper Json.ReadsBack Json.deepest v) :
    Agree v (ofOutput (.json v)) v.pretty where
  single := rfl
  read := Json.pretty_reads_back v proper
  structured := rfl
  success := rfl
  sent := by
    have sent := result_sent (.ok (.json v))
    rwa [sentMembers, Json.proper_sorted _ _ v proper] at sent

def thorny : Value :=
  .object [
    ("", .array []),
    ("\x01\"", .text "\x00\n\\\x7f"),
    ("numbers", .array [.number (.integer (-9223372036854775808)),
      .number (.integer 18446744073709551615), .number (.double ⟨false, 7205759403792794, -56⟩)]),
    ("object", .object [("no", .boolean false), ("null", .null)])]

theorem thorny_proper : Json.Proper Json.ReadsBack Json.deepest thorny := by
  have tenth : Json.ReadsBack ⟨false, 7205759403792794, -56⟩ := by
    unfold Json.ReadsBack
    decide +kernel
  refine .object 126 _ (by decide) ?_
  simp only [List.forall_mem_cons]
  refine ⟨.array 125 _ (List.forall_mem_nil _), .text _ _, .array 125 _ ?_, .object 125 _ (by decide) ?_,
    List.forall_mem_nil _⟩
  · simp only [List.forall_mem_cons]
    exact ⟨.integer _ _ (by decide) (by decide), .integer _ _ (by decide) (by decide), .double _ _ tenth,
      List.forall_mem_nil _⟩
  · simp only [List.forall_mem_cons]
    exact ⟨.boolean _ _, .null _, List.forall_mem_nil _⟩

theorem thorny_output_agrees :
    Json.Proper Json.ReadsBack Json.deepest thorny ∧
      Agree thorny (ofOutput (.json thorny)) thorny.pretty :=
  ⟨thorny_proper, json_output_agrees thorny thorny_proper⟩

end CallResult
end MarkdownServer.Tools
