import MarkdownServer.Json.Draft
import MarkdownServer.Json.Mismatch
/- Decoding a draft into a record. Of all that is wrong with a text, what stands first counts. -/
set_option autoImplicit false

namespace MarkdownServer.Json

inductive Rejection where
  | fault (fault : Fault)
  | mismatch (mismatch : Mismatch)
deriving DecidableEq, Repr

def Rejection.message : Rejection → String
  | .fault f => f.message
  | .mismatch m => m.message

namespace Draft

def found : Draft → Except Rejection Found
  | .null => .ok .null
  | .boolean b => .ok (.boolean b)
  | .number n => .ok (.number n)
  | .text s => .ok (.text s)
  | .array _ _ => .ok .array
  | .object _ _ => .ok .object
  | .broken fault => .error (.fault fault)

def refuse {α : Type} (draft : Draft) (expected : String) : Except Rejection α := do
  throw (.mismatch (.wrongType (← draft.found) expected))

def asText : Draft → Except Rejection String
  | .text s => .ok s
  | draft => draft.refuse "a string"

def asOptionalText : Draft → Except Rejection (Option String)
  | .null => .ok none
  | draft => draft.asText.map some

def asSize (expected : String) : Draft → Except Rejection Nat
  | .number (.integer i) =>
    if i < 0 then .error (.mismatch (.wrongValue (.number (.integer i)) expected))
    else .ok i.toNat
  | draft => draft.refuse expected

def asParsed {α : Type} (parse? : String → Option α) (expected problem : String) :
    Draft → Except Rejection α
  | .text s =>
    match parse? s with
    | some a => .ok a
    | none => .error (.mismatch (.refused problem))
  | draft => draft.refuse expected

def choose {α : Type} (choices : List (String × α)) (name : String) : Except Rejection α :=
  match choices.find? fun c => c.1 == name with
  | some c => .ok c.2
  | none => .error (.mismatch (.unknownVariant name (choices.map Prod.fst)))

/-- An object with one member that is null stands for the name of the member. -/
def asOnlyName {α : Type} (choices : List (String × α)) :
    List (Draft × Draft) → Option Fault → Except Rejection α
  | [], none => .error (.fault .expectedValue)
  | [], some .endInObject => .error (.fault .endInValue)
  | [], some fault => .error (.fault fault)
  | (name, value) :: rest, stop => do
    let choice ← match name with
      | .text s => choose choices s
      | name => name.refuse "variant identifier"
    match value with
    | .null => pure ()
    | value => value.refuse "unit"
    match rest, stop with
    | [], none => .ok choice
    | [], some .endInObject => .error (.fault .endInObject)
    | _, _ => .error (.fault .expectedValue)

def asChoice {α : Type} (choices : List (String × α)) : Draft → Except Rejection α
  | .text s => choose choices s
  | .object members stop => asOnlyName choices members stop
  | .broken fault => .error (.fault fault)
  | _ => .error (.fault .expectedValue)

end Draft

structure RecordField (σ : Type) where
  name : String
  read : Draft → σ → Except Rejection σ

def RecordField.of {σ α : Type} (name : String) (read : Draft → Except Rejection α)
    (set : α → σ → σ) : RecordField σ :=
  ⟨name, fun draft record => (read draft).map fun a => set a record⟩

structure Shape (σ : Type) where
  type : String
  fields : List (RecordField σ)
  start : σ

namespace Shape

variable {σ : Type}

def find? (shape : Shape σ) (name : String) : Option (RecordField σ) :=
  shape.fields.find? fun f => f.name == name

def readMembers (shape : Shape σ) (seen : List String) (record : σ) :
    List (Draft × Draft) → Except Rejection σ
  | [] => .ok record
  | (.text name, draft) :: rest =>
    match shape.find? name with
    | none =>
      .error (.mismatch (.unknownField name (shape.fields.map RecordField.name)))
    | some field =>
      if seen.contains name then .error (.mismatch (.duplicateField name))
      else match field.read draft record with
      | .error rejection => .error rejection
      | .ok record => readMembers shape (name :: seen) record rest
  | (_, .broken fault) :: _ => .error (.fault fault)
  | (_, _) :: _ => .error (.fault .keyNotText)

def beyond : Option Fault → Fault
  | some .trailingComma => .trailingComma
  | some .endInArray => .endInArray
  | _ => .trailingCharacters

def readItems (record : σ) (stop : Option Fault) :
    List (RecordField σ) → List Draft → Except Rejection σ
  | [], [] =>
    match stop with
    | none => .ok record
    | stop => .error (.fault (beyond stop))
  | [], _ :: _ => .error (.fault .trailingCharacters)
  | _ :: _, [] =>
    match stop with
    | none => .ok record
    | some fault => .error (.fault fault)
  | field :: fields, draft :: rest =>
    match field.read draft record with
    | .error rejection => .error rejection
    | .ok record => readItems record stop fields rest

/-- Reads a record from an object, or from an array of its first fields. -/
def read (shape : Shape σ) : Draft → Except Rejection σ
  | .object members stop => do
    let record ← shape.readMembers [] shape.start members
    match stop with
    | none => .ok record
    | some fault => .error (.fault fault)
  | .array items stop => readItems shape.start stop shape.fields items
  | draft => draft.refuse shape.type

def readText (shape : Shape σ) (text : String) : Except Rejection σ := do
  let (draft, trailing) := Draft.read text
  let record ← shape.read draft
  match trailing with
  | none => .ok record
  | some fault => .error (.fault fault)

end Shape
end MarkdownServer.Json
