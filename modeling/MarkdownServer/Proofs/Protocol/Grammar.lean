import MarkdownServer.Proofs.Json.Integers
import MarkdownServer.Proofs.Json.Members
import MarkdownServer.Proofs.Protocol.Reading
/- The grammar of messages, as a grammar of texts. A text is read as a message exactly if it is one, and
   of its members only four count, each where it stands last. -/
set_option autoImplicit false

namespace MarkdownServer.Protocol

open Json (JsonText ObjectText ScalarSpelled TextSpelled Value latest? lookup?)

inductive IdSpelled : RequestId → List Char → Prop where
  | text (s : String) (inside : List Char) (spelled : TextSpelled s.toList inside) :
      IdSpelled (.text s) ('"' :: inside ++ ['"'])
  | number (i : Int) (low : -9223372036854775808 ≤ i) (high : i ≤ 9223372036854775807) :
      IdSpelled (.number i) (toString i).toList

theorem id_spelled_scalar (id : RequestId) (cs : List Char) (spelled : IdSpelled id cs) :
    ScalarSpelled id.toValue cs ∧ id.Fits := by
  cases spelled with
  | text s inside spelled => exact ⟨.text s inside spelled, trivial⟩
  | number i low high =>
      exact ⟨(Json.integer_spelled_iff i _).mpr ⟨⟨low, by omega⟩, rfl⟩, by omega, by omega⟩

theorem id_spelled_iff (v : Value) (cs : List Char) (spelled : ScalarSpelled v cs) (id : RequestId) :
    (v = id.toValue ∧ id.Fits) ↔ IdSpelled id cs := by
  constructor
  · rintro ⟨rfl, fits⟩
    cases id with
    | text s =>
        cases spelled with
        | text _ inside spelled => exact .text s inside spelled
    | number i =>
        obtain ⟨_, rfl⟩ := (Json.integer_spelled_iff i cs).mp spelled
        exact .number i (by have := fits.1; omega) (by have := fits.2; omega)
  · intro own
    obtain ⟨again, fits⟩ := id_spelled_scalar id cs own
    exact ⟨Json.spelled_unique 0 v id.toValue cs spelled again, fits⟩

def IsJson (line : String) : Prop := ∃ v, JsonText v line.toList

def given? : Option Value → Option Value
  | some .null => none
  | value? => value?

structure RequestText (line : String) (members : List (String × Value)) (request : Request) : Prop where
  object : ObjectText members line.toList
  version : latest? "jsonrpc" members = some (.text "2.0")
  id : latest? "id" members = some request.id.toValue
  fits : request.id.Fits
  called : latest? "method" members = some (.text request.method)
  named : request.method ≠ ""
  params : request.params = given? (latest? "params" members)

structure NotificationText (line : String) (members : List (String × Value)) (method : String) : Prop where
  object : ObjectText members line.toList
  version : latest? "jsonrpc" members = some (.text "2.0")
  anonymous : ∀ m ∈ members, m.1 ≠ "id"
  called : latest? "method" members = some (.text method)
  named : method ≠ ""

theorem latest_absent (name : String) (members : List (String × Value)) :
    latest? name members = none ↔ ∀ m ∈ members, m.1 ≠ name := by
  simp [latest?, lookup?]

theorem params_given (gathered members : List (String × Value))
    (same : ∀ name, lookup? name gathered = latest? name members) :
    Message.paramsOf gathered = given? (latest? "params" members) := by
  unfold Message.paramsOf
  rw [same]
  cases latest? "params" members with
  | none => rfl
  | some v => cases v <;> rfl

theorem parse_object (line : String) (members : List (String × Value))
    (text : ObjectText members line.toList) :
    ∃ gathered, Message.parse line = Message.ofValue (.object gathered) ∧
      ∀ name, lookup? name gathered = latest? name members := by
  refine ⟨_, ?_, fun name => Json.lookup_gathered name members⟩
  rw [Message.parse, Json.object_text_read line members text]
  rfl

theorem request_text_parse (line : String) (members : List (String × Value)) (request : Request)
    (text : RequestText line members request) : Message.parse line = .ok (.request request) := by
  obtain ⟨gathered, parsed, same⟩ := parse_object line members text.object
  have version := (same "jsonrpc").trans text.version
  have id := (same "id").trans text.id
  have method := (same "method").trans text.called
  have readable := of_value_to_value request.id text.fits
  have params := (params_given gathered members same).trans text.params.symm
  obtain ⟨own, name, given⟩ := request
  have nonempty : name ≠ "" := text.named
  dsimp only at id method readable params
  have methodOf : Message.methodOf gathered = .ok name := by
    rw [Message.methodOf, method]
    rfl
  have ofMembers : Message.ofMembers gathered = .ok (.request ⟨own, name, given⟩) := by
    simp only [Message.ofMembers, id, readable, methodOf, params]
    rfl
  rw [parsed, Message.ofValue, if_pos ((text_some _ _).mpr version), ofMembers]
  exact if_neg nonempty

theorem notification_text_parse (line : String) (members : List (String × Value)) (method : String)
    (text : NotificationText line members method) :
    Message.parse line = .ok (.notification method) := by
  obtain ⟨gathered, parsed, same⟩ := parse_object line members text.object
  have version := (same "jsonrpc").trans text.version
  have id := (same "id").trans ((latest_absent "id" members).mpr text.anonymous)
  have methodOf : Message.methodOf gathered = .ok method := by
    rw [Message.methodOf, same, text.called]
    rfl
  have ofMembers : Message.ofMembers gathered = .ok (.notification method) := by
    simp only [Message.ofMembers, id, methodOf]
    rfl
  rw [parsed, Message.ofValue, if_pos ((text_some _ _).mpr version), ofMembers]
  exact if_neg text.named

theorem parse_request_text (line : String) (request : Request)
    (parsed : Message.parse line = .ok (.request request)) :
    ∃ members, RequestText line members request := by
  have reading := parse_reading line
  rw [parsed] at reading
  cases reading with
  | request gathered speaks method named nonempty id present fits =>
      obtain ⟨members, text, same⟩ := Json.read_object_text line gathered speaks.read
      exact ⟨members, text, (same _).symm.trans speaks.version, (same _).symm.trans present, fits,
        (same _).symm.trans named, nonempty, params_given gathered members same⟩

theorem parse_notification_text (line : String) (method : String)
    (parsed : Message.parse line = .ok (.notification method)) :
    ∃ members, NotificationText line members method := by
  have reading := parse_reading line
  rw [parsed] at reading
  cases reading with
  | notification gathered speaks method named nonempty absent =>
      obtain ⟨members, text, same⟩ := Json.read_object_text line gathered speaks.read
      exact ⟨members, text, (same _).symm.trans speaks.version,
        (latest_absent "id" members).mp ((same _).symm.trans absent), (same _).symm.trans named, nonempty⟩

theorem is_json_iff (line : String) : IsJson line ↔ ∃ v, Value.read line = .ok v :=
  exists_congr fun v => (Json.value_read_iff line v).symm

theorem refusal_code (line : String) (refusal : Refusal)
    (refused : Message.parse line = .error refusal) :
    (refusal.failure.code.number = -32700 ↔ ¬ IsJson line) ∧
      (refusal.failure.code.number = -32600 ↔ IsJson line) := by
  rw [is_json_iff]
  have reading := parse_reading line
  rw [refused] at reading
  cases reading with
  | notJson fault failed => simp [failed, Refusal.failure, Failure.parseError, ErrorCode.number]
  | notObject value read => simp [read, Refusal.failure, Failure.invalidRequest, ErrorCode.number]
  | wrongVersion members read => simp [read, Refusal.failure, Failure.invalidRequest, ErrorCode.number]
  | strangeId members speaks =>
      simp [speaks.read, Refusal.failure, Failure.invalidRequest, ErrorCode.number]
  | noMethod members speaks =>
      simp [speaks.read, Refusal.failure, Failure.invalidRequest, ErrorCode.number]
  | emptyMethod members speaks =>
      simp [speaks.read, Refusal.failure, Failure.invalidRequest, ErrorCode.number]

def messageMembers : List String := ["jsonrpc", "id", "method", "params"]

theorem of_value_congr (gathered others : List (String × Value))
    (same : ∀ name ∈ messageMembers, lookup? name gathered = lookup? name others) :
    Message.ofValue (.object gathered) = Message.ofValue (.object others) := by
  have version := same "jsonrpc" (by decide)
  have id := same "id" (by decide)
  have method := same "method" (by decide)
  have params := same "params" (by decide)
  simp only [Message.ofValue, Message.ofMembers, Message.methodOf, Message.paramsOf, version, id, method,
    params]

structure Accepts (line : String) : Prop where
  request : ∀ request, Message.parse line = .ok (.request request) ↔
    ∃ members, RequestText line members request
  notification : ∀ method, Message.parse line = .ok (.notification method) ↔
    ∃ members, NotificationText line members method
  rejected : (∃ refusal, Message.parse line = .error refusal) ↔
    (¬ ∃ members request, RequestText line members request) ∧
      ¬ ∃ members method, NotificationText line members method
  code : ∀ refusal, Message.parse line = .error refusal →
    (refusal.failure.code.number = -32700 ↔ ¬ IsJson line) ∧
      (refusal.failure.code.number = -32600 ↔ IsJson line)
  alike : ∀ other members others, ObjectText members line.toList → ObjectText others other.toList →
    (∀ name ∈ messageMembers, latest? name members = latest? name others) →
    Message.parse line = Message.parse other
  ids : ∀ v cs, ScalarSpelled v cs → ∀ id : RequestId, (v = id.toValue ∧ id.Fits) ↔ IdSpelled id cs

theorem parse_accepts_grammar (line : String) : Accepts line where
  request request :=
    ⟨parse_request_text line request, fun ⟨members, text⟩ => request_text_parse line members request text⟩
  notification method := ⟨parse_notification_text line method, fun ⟨members, text⟩ =>
    notification_text_parse line members method text⟩
  rejected := by
    constructor
    · rintro ⟨refusal, refused⟩
      constructor
      · rintro ⟨members, request, text⟩
        cases refused.symm.trans (request_text_parse line members request text)
      · rintro ⟨members, method, text⟩
        cases refused.symm.trans (notification_text_parse line members method text)
    · rintro ⟨noRequest, noNotification⟩
      cases parsed : Message.parse line with
      | error refusal => exact ⟨refusal, rfl⟩
      | ok message =>
          cases message with
          | request request =>
              obtain ⟨members, text⟩ := parse_request_text line request parsed
              exact absurd ⟨members, request, text⟩ noRequest
          | notification method =>
              obtain ⟨members, text⟩ := parse_notification_text line method parsed
              exact absurd ⟨members, method, text⟩ noNotification
  code := refusal_code line
  alike other members others text text' same := by
    obtain ⟨gathered, parsed, known⟩ := parse_object line members text
    obtain ⟨gathered', parsed', known'⟩ := parse_object other others text'
    rw [parsed, parsed']
    exact of_value_congr gathered gathered' fun name member =>
      (known name).trans ((same name member).trans (known' name).symm)
  ids := id_spelled_iff

example : ["null", "1.0", "1e0", "-0", "9223372036854775808"].all (fun id =>
    !(Message.parse ("\x7b\"jsonrpc\":\"2.0\",\"method\":\"m\",\"id\":" ++ id ++ "\x7d")).isOk) = true := by
  decide +kernel

end MarkdownServer.Protocol
