import MarkdownServer.Protocol.Message
/- What a text comes to when it is read as a message. Each case of `Reading` names one way in which a
   text is refused or taken, with all that decides it, so that no later proof opens the reader again. -/
set_option autoImplicit false

namespace MarkdownServer.Protocol

open Json (Mismatch Value lookup?)

def RequestId.Fits : RequestId → Prop
  | .number i => -9223372036854775808 ≤ i ∧ i ≤ 9223372036854775807
  | .text _ => True

theorem of_value_some (value : Value) (id : RequestId) (readable : RequestId.ofValue? value = some id) :
    value = id.toValue ∧ id.Fits := by
  unfold RequestId.ofValue? at readable
  split at readable
  · cases readable
    exact ⟨rfl, trivial⟩
  · rename_i i
    split at readable
    · rename_i small
      cases readable
      exact ⟨rfl, by simpa [RequestId.isSmall, RequestId.Fits] using small⟩
    · cases readable
  · cases readable

theorem of_value_to_value (id : RequestId) (fits : id.Fits) :
    RequestId.ofValue? id.toValue = some id := by
  cases id with
  | number i =>
      simpa [RequestId.ofValue?, RequestId.toValue, RequestId.isSmall, RequestId.Fits] using fits
  | text s => rfl

theorem text_some (value? : Option Value) (s : String) :
    value?.bind Value.text? = some s ↔ value? = some (.text s) := by
  cases value? with
  | none => simp
  | some value => cases value <;> simp [Value.text?]

def memberOf (line name : String) : Option Value :=
  (Value.read line).toOption.bind (Value.member? name)

def idOf (line : String) : Option RequestId :=
  (memberOf line "id").bind RequestId.ofValue?

theorem member_of_object (line name : String) (members : List (String × Value))
    (read : Value.read line = .ok (.object members)) : memberOf line name = lookup? name members := by
  unfold memberOf
  rw [read]
  rfl

theorem id_of_some (line : String) (id : RequestId) :
    idOf line = some id ↔ memberOf line "id" = some id.toValue ∧ id.Fits := by
  unfold idOf
  constructor
  · intro known
    obtain ⟨value, present, readable⟩ := Option.bind_eq_some_iff.mp known
    obtain ⟨rfl, fits⟩ := of_value_some value id readable
    exact ⟨present, fits⟩
  · rintro ⟨present, fits⟩
    rw [present]
    exact of_value_to_value id fits

theorem method_ok (members : List (String × Value)) (method : String)
    (read : Message.methodOf members = .ok method) :
    lookup? "method" members = some (.text method) := by
  unfold Message.methodOf at read
  cases present : lookup? "method" members with
  | none =>
      rw [present] at read
      cases read
  | some value =>
      rw [present] at read
      cases value with
      | text s =>
          cases read
          rfl
      | _ => cases read

theorem method_error (members : List (String × Value)) (mismatch : Mismatch)
    (failed : Message.methodOf members = .error mismatch) (method : String) :
    lookup? "method" members ≠ some (.text method) := by
  intro present
  unfold Message.methodOf at failed
  rw [present] at failed
  cases failed

structure Speaks (line : String) (members : List (String × Value)) : Prop where
  read : Value.read line = .ok (.object members)
  version : lookup? "jsonrpc" members = some (.text "2.0")

inductive Reading (line : String) : Except Refusal Message → Prop where
  | notJson (fault : Json.Fault) (failed : Value.read line = .error fault) :
      Reading line (.error .notJson)
  | notObject (value : Value) (read : Value.read line = .ok value) (other : value.isObject = false) :
      Reading line (.error .notObject)
  | wrongVersion (members : List (String × Value)) (read : Value.read line = .ok (.object members))
      (version : lookup? "jsonrpc" members ≠ some (.text "2.0")) : Reading line (.error .wrongVersion)
  | strangeId (members : List (String × Value)) (speaks : Speaks line members) (value : Value)
      (present : lookup? "id" members = some value) (strange : RequestId.ofValue? value = none) :
      Reading line (.error (.malformed (.noAlternative "RequestId")))
  | noMethod (members : List (String × Value)) (speaks : Speaks line members) (mismatch : Mismatch)
      (unnamed : ∀ method, lookup? "method" members ≠ some (.text method)) :
      Reading line (.error (.malformed mismatch))
  | emptyMethod (members : List (String × Value)) (speaks : Speaks line members)
      (named : lookup? "method" members = some (.text "")) :
      Reading line (.error (.emptyMethod ((lookup? "id" members).bind RequestId.ofValue?)))
  | notification (members : List (String × Value)) (speaks : Speaks line members) (method : String)
      (named : lookup? "method" members = some (.text method)) (nonempty : method ≠ "")
      (absent : lookup? "id" members = none) : Reading line (.ok (.notification method))
  | request (members : List (String × Value)) (speaks : Speaks line members) (method : String)
      (named : lookup? "method" members = some (.text method)) (nonempty : method ≠ "")
      (id : RequestId) (present : lookup? "id" members = some id.toValue) (fits : id.Fits) :
      Reading line (.ok (.request ⟨id, method, Message.paramsOf members⟩))

theorem named_reading (line : String) (members : List (String × Value)) (speaks : Speaks line members)
    (message : String → Message) (method : String)
    (named : lookup? "method" members = some (.text method))
    (same : (message method).method = method)
    (id : (message method).id? = (lookup? "id" members).bind RequestId.ofValue?)
    (taken : method ≠ "" → Reading line (.ok (message method))) :
    Reading line (if (message method).method = "" then .error (.emptyMethod (message method).id?)
      else .ok (message method)) := by
  rw [same, id]
  by_cases empty : method = ""
  · rw [if_pos empty]
    exact .emptyMethod members speaks (by rw [named, empty])
  · rw [if_neg empty]
    exact taken empty

theorem spoken_reading (line : String) (members : List (String × Value)) (speaks : Speaks line members) :
    Reading line (match Message.ofMembers members with
      | .error m => .error (.malformed m)
      | .ok message =>
          if message.method = "" then .error (.emptyMethod message.id?) else .ok message) := by
  unfold Message.ofMembers
  cases present : lookup? "id" members with
  | none =>
      cases read : Message.methodOf members with
      | error mismatch => exact .noMethod members speaks mismatch (method_error members mismatch read)
      | ok method =>
          have named := method_ok members method read
          exact named_reading line members speaks .notification method named rfl (by rw [present]; rfl)
            fun nonempty => .notification members speaks method named nonempty present
  | some value =>
      cases readable : RequestId.ofValue? value with
      | none =>
          simp only [readable]
          exact .strangeId members speaks value present readable
      | some id =>
          obtain ⟨rfl, fits⟩ := of_value_some value id readable
          cases read : Message.methodOf members with
          | error mismatch =>
              simp only [readable]
              exact .noMethod members speaks mismatch (method_error members mismatch read)
          | ok method =>
              have named := method_ok members method read
              simp only [readable]
              exact named_reading line members speaks
                (fun method => .request ⟨id, method, Message.paramsOf members⟩) method named rfl
                (by rw [present]; exact readable.symm)
                fun nonempty => .request members speaks method named nonempty id present fits

theorem parse_reading (line : String) : Reading line (Message.parse line) := by
  unfold Message.parse
  cases read : Value.read line with
  | error fault => exact .notJson fault read
  | ok value =>
      cases value with
      | object members =>
          dsimp only [Message.ofValue]
          by_cases version : lookup? "jsonrpc" members = some (.text "2.0")
          · rw [if_pos ((text_some _ _).mpr version)]
            exact spoken_reading line members ⟨read, version⟩
          · rw [if_neg (mt (text_some _ _).mp version)]
            exact .wrongVersion members read version
      | _ => exact .notObject _ read rfl

end MarkdownServer.Protocol
