import MarkdownServer.Numeric.Double
/- JSON values, and the order of the members of an object. -/
set_option autoImplicit false

namespace MarkdownServer.Json

open Numeric (Double)

/-- Whole numbers stay exact from `-2 ^ 63` to `2 ^ 64 - 1`; all others are doubles. -/
inductive Number where
  | integer (i : Int)
  | double (x : Double)
deriving DecidableEq, Repr

inductive Value where
  | null
  | boolean (b : Bool)
  | number (n : Number)
  | text (s : String)
  | array (items : List Value)
  | object (members : List (String × Value))
deriving Repr, Inhabited

def lookup? (name : String) (members : List (String × Value)) : Option Value :=
  (members.find? fun m => m.1 == name).map Prod.snd

def insertMember (name : String) (value : Value) :
    List (String × Value) → List (String × Value)
  | [] => [(name, value)]
  | m :: rest =>
    if name < m.1 then (name, value) :: m :: rest
    else if name = m.1 then (name, value) :: rest
    else m :: insertMember name value rest

namespace Value

def member? (name : String) : Value → Option Value
  | .object members => lookup? name members
  | _ => none

def isObject : Value → Bool
  | .object _ => true
  | _ => false

def isNull : Value → Bool
  | .null => true
  | _ => false

def text? : Value → Option String
  | .text s => some s
  | _ => none

def ofMembers (members : List (String × Value)) : Value :=
  .object (members.foldl (fun done m => insertMember m.1 m.2 done) [])

mutual
def sorted : Value → Value
  | .array items => .array (sortedItems items)
  | .object members => ofMembers (sortedMembers members)
  | .null => .null
  | .boolean b => .boolean b
  | .number n => .number n
  | .text s => .text s

def sortedItems : List Value → List Value
  | [] => []
  | v :: rest => v.sorted :: sortedItems rest

def sortedMembers : List (String × Value) → List (String × Value)
  | [] => []
  | (name, v) :: rest => (name, v.sorted) :: sortedMembers rest
end

end Value
end MarkdownServer.Json
