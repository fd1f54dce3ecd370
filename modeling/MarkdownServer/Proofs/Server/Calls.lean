import MarkdownServer.Proofs.Tools.Registration
import MarkdownServer.Proofs.Tools.Results
/- What a request for a call of a tool is answered with, in a session that runs: a failure where no
   tool is called, and a result wherever one is, whatever comes of the call. -/
set_option autoImplicit false

namespace MarkdownServer

open Json (Value lookup?)
open Protocol
open Tools (CallResult Output Registry Tool)

inductive CallMeant : Value → CallParams → Prop where
  | object (members : List (String × Value)) (name : String)
      (named : lookup? "name" members = some (.text name)) :
      CallMeant (.object members) ⟨name, (lookup? "arguments" members).getD .null⟩
  | alone (name : String) : CallMeant (.array [.text name]) ⟨name, .null⟩
  | paired (name : String) (arguments : Value) :
      CallMeant (.array [.text name, arguments]) ⟨name, arguments⟩

theorem as_text_ok_iff (v : Value) (s : String) : v.asText = .ok s ↔ v = .text s := by
  cases v <;> simp [Value.asText]

theorem call_meant_decoded (value : Value) (params : CallParams) (meant : CallMeant value params) :
    CallParams.ofValue value = .ok params := by
  cases meant with
  | object members name named => rw [CallParams.ofValue, named]; rfl
  | alone name => rfl
  | paired name arguments => rfl

theorem call_decoded_meant (value : Value) (params : CallParams)
    (decoded : CallParams.ofValue value = .ok params) : CallMeant value params := by
  match value with
  | .object members =>
    rw [CallParams.ofValue] at decoded
    cases named : lookup? "name" members with
    | none => rw [named] at decoded; cases decoded
    | some v =>
      cases text : v.asText with
      | error mismatch =>
        rw [named, Json.readOptional, text] at decoded
        cases decoded
      | ok name =>
        rw [named, Json.readOptional, text] at decoded
        cases decoded
        exact .object members name (by rw [named, (as_text_ok_iff v name).mp text])
  | .array [] => cases decoded
  | .array (first :: rest) =>
    rw [CallParams.ofValue] at decoded
    cases text : first.asText with
    | error mismatch => rw [text] at decoded; cases decoded
    | ok name =>
      rw [text] at decoded
      rw [(as_text_ok_iff first name).mp text]
      match rest with
      | [] => cases decoded; exact .alone name
      | [arguments] => cases decoded; exact .paired name arguments
      | second :: third :: more =>
        have long : 2 < (first :: second :: third :: more).length := by simp
        rw [Json.checkLength, if_pos long] at decoded
        cases decoded
  | .null | .boolean _ | .number _ | .text _ => cases decoded

structure Calls (registry : Registry) (params : Option Value) (tool : Tool) (arguments : Value) :
    Prop where
  meant : ∃ value, params = some value ∧ CallMeant value ⟨tool.name, arguments⟩
  fit : arguments = .null ∨ ∃ members, arguments = .object members
  known : tool ∈ registry.tools

inductive Uncalled (registry : Registry) : Option Value → Prop where
  | missing : Uncalled registry none
  | meaningless (value : Value) (unlike : ∀ params, ¬ CallMeant value params) :
      Uncalled registry (some value)
  | unfit (value : Value) (params : CallParams) (meant : CallMeant value params)
      (present : params.arguments ≠ .null) (other : ∀ members, params.arguments ≠ .object members) :
      Uncalled registry (some value)
  | unknown (value : Value) (params : CallParams) (meant : CallMeant value params)
      (absent : ∀ tool ∈ registry.tools, tool.name ≠ params.name) : Uncalled registry (some value)

theorem fit_iff (arguments : Value) : (arguments.isObject || arguments.isNull) = true ↔
    arguments = .null ∨ ∃ members, arguments = .object members := by
  cases arguments <;> simp [Value.isObject, Value.isNull]

theorem called_or_not (registry : Registry) (params : Option Value) :
    Uncalled registry params ∨ ∃ tool arguments, Calls registry params tool arguments := by
  cases params with
  | none => exact .inl .missing
  | some value =>
    by_cases some : ∃ params, CallMeant value params
    · obtain ⟨⟨name, arguments⟩, meant⟩ := some
      by_cases fit : arguments = .null ∨ ∃ members, arguments = .object members
      · by_cases known : ∃ tool ∈ registry.tools, tool.name = name
        · obtain ⟨tool, known, rfl⟩ := known
          exact .inr ⟨tool, arguments, ⟨value, rfl, meant⟩, fit, known⟩
        · push Not at known
          exact .inl (.unknown value _ meant known)
      · push Not at fit
        exact .inl (.unfit value _ meant fit.1 fit.2)
    · push Not at some
      exact .inl (.meaningless value some)

namespace Server

theorem call_params_meant (version : Version) (id : RequestId) (method : String) (value : Value)
    (params : CallParams) (meant : CallMeant value params) :
    callParams (.running version) ⟨id, method, some value⟩ =
      if params.arguments.isObject || params.arguments.isNull then .ok params
      else .error (.invalidParams id "Tool arguments must be an object") := by
  have decoded := call_meant_decoded value params meant
  simp only [callParams, paramsOf, decoded]
  rfl

-- No fault of the registry is an internal error, since the only one there is in a call is that the
-- name is unknown.
theorem call_tool_uncalled (server : Server) (version : Version) (id : RequestId) (method : String)
    (params : Option Value) (uncalled : Uncalled server.registry params) :
    ∃ message, server.callTool (.running version) ⟨id, method, params⟩ =
      .refused (.running version) (.invalidParams id message) := by
  cases uncalled with
  | missing => exact ⟨_, rfl⟩
  | meaningless value unlike =>
    cases decoded : CallParams.ofValue value with
    | ok params => exact absurd (call_decoded_meant value params decoded) (unlike params)
    | error mismatch =>
      simp only [callTool, callParams, paramsOf, decoded]
      exact ⟨_, rfl⟩
  | unfit value params meant present other =>
    have unfit : ¬ (params.arguments.isObject || params.arguments.isNull) = true := by
      rw [fit_iff]
      exact not_or.mpr ⟨present, not_exists.mpr other⟩
    rw [callTool, call_params_meant version id method value params meant, if_neg unfit]
    exact ⟨_, rfl⟩
  | unknown value params meant absent =>
    have strange : params.name ∉ server.registry.names := fun member => by
      obtain ⟨tool, known, same⟩ := List.mem_map.mp member
      exact absent tool known same
    have failed := (Registry.invoke_error_iff server.registry params.name params.arguments _).mpr
      ⟨rfl, strange⟩
    rw [callTool, call_params_meant version id method value params meant]
    by_cases fit : (params.arguments.isObject || params.arguments.isNull) = true
    · rw [if_pos fit]
      dsimp only
      rw [failed]
      exact ⟨_, rfl⟩
    · rw [if_neg fit]
      exact ⟨_, rfl⟩

theorem call_tool_calls (server : Server) (version : Version) (id : RequestId) (method : String)
    (params : Option Value) (tool : Tool) (arguments : Value)
    (calls : Calls server.registry params tool arguments) :
    ∃ log, server.callTool (.running version) ⟨id, method, params⟩ = ⟨.running version,
      some (.success id (CallResult.ofResult (tool.run arguments).result).toValue.sorted), log⟩ := by
  obtain ⟨⟨value, rfl, meant⟩, fit, known⟩ := calls
  have found : server.registry.find? tool.name = some tool :=
    (Registry.find_some_iff server.registry tool.name tool).mpr ⟨known, rfl⟩
  obtain ⟨log, invoked⟩ := Registry.invoke_found server.registry tool.name tool arguments found
  rw [callTool, call_params_meant version id method value _ meant, if_pos ((fit_iff arguments).mpr fit)]
  dsimp only
  rw [invoked]
  dsimp only
  rw [Json.Data.encode_of_value]
  exact ⟨log, rfl⟩

theorem handle_call (server : Server) (session : Session) (id : RequestId) (params : Option Value) :
    server.handle session (.request ⟨id, "tools/call", params⟩) =
      server.callTool session ⟨id, "tools/call", params⟩ := by
  have notInitialize : "tools/call" ≠ "initialize" := by decide
  have notList : "tools/call" ≠ "tools/list" := by decide
  simp only [handle, handleRequest, if_neg notInitialize, if_neg notList, if_true]

theorem uncalled_answer (server : Server) (version : Version) (id : RequestId)
    (params : Option Value) (uncalled : Uncalled server.registry params) :
    ∃ message, server.handle (.running version) (.request ⟨id, "tools/call", params⟩) =
      ⟨.running version, some (.failure (.invalidParams id message)), []⟩ := by
  obtain ⟨message, failed⟩ := call_tool_uncalled server version id "tools/call" params uncalled
  exact ⟨message, by rw [handle_call, failed, Answer.refused]⟩

theorem called_answer (server : Server) (version : Version) (id : RequestId) (params : Option Value)
    (tool : Tool) (arguments : Value) (calls : Calls server.registry params tool arguments) :
    ∃ log, server.handle (.running version) (.request ⟨id, "tools/call", params⟩) =
      ⟨.running version,
        some (.success id (CallResult.ofResult (tool.run arguments).result).toValue.sorted), log⟩ := by
  obtain ⟨log, succeeded⟩ := call_tool_calls server version id "tools/call" params tool arguments calls
  exact ⟨log, by rw [handle_call, succeeded]⟩

end Server

structure CallAnswered (server : Server) (version : Version) (id : RequestId) (params : Option Value)
    (answer : Answer) : Prop where
  session : answer.session = .running version
  failing : (∃ failure, answer.reply = some (.failure failure)) ↔ Uncalled server.registry params
  failure : ∀ failure, answer.reply = some (.failure failure) →
    failure.id = some id ∧ failure.code.number = -32602
  called : ¬ Uncalled server.registry params →
    ∃ tool arguments, Calls server.registry params tool arguments
  served : ∀ tool arguments, Calls server.registry params tool arguments → ∃ result,
    answer.reply = some (.success id result) ∧ CallResult.Told (tool.run arguments).result result

theorem tool_call_answered (server : Server) (version : Version) (id : RequestId)
    (params : Option Value) :
    CallAnswered server version id params
      (server.handle (.running version) (.request ⟨id, "tools/call", params⟩)) := by
  have served : ∀ tool arguments, Calls server.registry params tool arguments → ∃ result,
      (server.handle (.running version) (.request ⟨id, "tools/call", params⟩)).reply =
        some (.success id result) ∧ CallResult.Told (tool.run arguments).result result := by
    intro tool arguments calls
    obtain ⟨log, answered⟩ := Server.called_answer server version id params tool arguments calls
    exact ⟨_, by rw [answered], CallResult.result_told _⟩
  rcases called_or_not server.registry params with uncalled | ⟨tool, arguments, calls⟩
  · obtain ⟨message, answered⟩ := Server.uncalled_answer server version id params uncalled
    refine ⟨by rw [answered], ⟨fun _ => uncalled, fun _ => ⟨_, by rw [answered]⟩⟩, ?_,
      absurd uncalled, served⟩
    rw [answered]
    rintro failure ⟨⟩
    exact ⟨rfl, rfl⟩
  · obtain ⟨log, answered⟩ := Server.called_answer server version id params tool arguments calls
    have succeeded : ∀ failure, (server.handle (.running version)
        (.request ⟨id, "tools/call", params⟩)).reply ≠ some (.failure failure) := by
      rw [answered]
      exact fun failure => nofun
    refine ⟨by rw [answered],
      ⟨fun ⟨failure, failed⟩ => absurd failed (succeeded failure), fun uncalled => ?_⟩,
      fun failure failed => absurd failed (succeeded failure), fun _ => ⟨tool, arguments, calls⟩, served⟩
    obtain ⟨message, refused⟩ := Server.uncalled_answer server version id params uncalled
    cases answered.symm.trans refused

end MarkdownServer
