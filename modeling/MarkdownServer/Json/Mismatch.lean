import MarkdownServer.Json.Printer
import MarkdownServer.Json.Value
import MarkdownServer.Text.Quoted
/- The ways in which a JSON value fails to have the shape that is asked for. -/
set_option autoImplicit false

namespace MarkdownServer.Json

inductive Found where
  | null
  | boolean (b : Bool)
  | number (n : Number)
  | text (s : String)
  | array
  | object
deriving DecidableEq, Repr

def Found.describe : Found → String
  | .null => "null"
  | .boolean b => "boolean `" ++ (if b then "true" else "false") ++ "`"
  | .number (.integer i) => "integer `" ++ toString i ++ "`"
  | .number (.double x) => "floating point `" ++ String.ofList (writeDouble x) ++ "`"
  | .text s => "string " ++ Text.quoted s
  | .array => "sequence"
  | .object => "map"

def Value.found : Value → Found
  | .null => .null
  | .boolean b => .boolean b
  | .number n => .number n
  | .text s => .text s
  | .array _ => .array
  | .object _ => .object

inductive Mismatch where
  | wrongType (found : Found) (expected : String)
  | wrongValue (found : Found) (expected : String)
  | wrongLength (length : Nat) (expected : String)
  | missingField (name : String)
  | unknownField (name : String) (known : List String)
  | duplicateField (name : String)
  | unknownVariant (name : String) (known : List String)
  | noAlternative (type : String)
  | refused (reason : String)
deriving DecidableEq, Repr

def inTicks (name : String) : String :=
  "`" ++ name ++ "`"

def oneOf : List String → String
  | [] => "there are no fields"
  | [name] => "expected " ++ inTicks name
  | [first, second] => "expected " ++ inTicks first ++ " or " ++ inTicks second
  | names => "expected one of " ++ ", ".intercalate (names.map inTicks)

def Mismatch.message : Mismatch → String
  | .wrongType found expected => "invalid type: " ++ found.describe ++ ", expected " ++ expected
  | .wrongValue found expected => "invalid value: " ++ found.describe ++ ", expected " ++ expected
  | .wrongLength length expected =>
      "invalid length " ++ toString length ++ ", expected " ++ expected
  | .missingField name => "missing field " ++ inTicks name
  | .unknownField name known => "unknown field " ++ inTicks name ++ ", " ++ oneOf known
  | .duplicateField name => "duplicate field " ++ inTicks name
  | .unknownVariant name known => "unknown variant " ++ inTicks name ++ ", " ++ oneOf known
  | .noAlternative type => "data did not match any variant of untagged enum " ++ type
  | .refused reason => reason

def Value.asText : Value → Except Mismatch String
  | .text s => .ok s
  | v => .error (.wrongType v.found "a string")

def Value.asOptionalText : Value → Except Mismatch (Option String)
  | .null => .ok none
  | v => v.asText.map some

def readOptional {α : Type} (read : Value → Except Mismatch α) :
    Option Value → Except Mismatch (Option α)
  | none => .ok none
  | some v => (read v).map some

def require {α : Type} (name : String) : Option α → Except Mismatch α
  | none => .error (.missingField name)
  | some a => .ok a

def checkLength (fields : Nat) (items : List Value) : Except Mismatch Unit :=
  if fields < items.length then .error (.wrongLength items.length "fewer elements in array")
  else .ok ()

end MarkdownServer.Json
