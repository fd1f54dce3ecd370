import MarkdownServer.Json.Fault
import MarkdownServer.Json.Printer
/- Data on its way to JSON. A mapping may have any data for its keys, and JSON has only texts there. -/
set_option autoImplicit false

namespace MarkdownServer.Json

inductive Data where
  | null
  | boolean (b : Bool)
  | number (n : Number)
  | text (s : String)
  | sequence (items : List Data)
  | mapping (entries : List (Data × Data))

namespace Data

def name? : Data → Option String
  | .text s => some s
  | .boolean b => some (if b then "true" else "false")
  | .number n => some (String.ofList n.write)
  | _ => none

mutual
def encode : Data → Except Fault Value
  | .null => .ok .null
  | .boolean b => .ok (.boolean b)
  | .number n => .ok (.number n)
  | .text s => .ok (.text s)
  | .sequence items => (encodeItems items).map .array
  | .mapping entries => (encodeEntries entries).map .ofMembers

def encodeItems : List Data → Except Fault (List Value)
  | [] => .ok []
  | item :: rest => do return (← item.encode) :: (← encodeItems rest)

def encodeEntries : List (Data × Data) → Except Fault (List (String × Value))
  | [] => .ok []
  | (key, item) :: rest =>
    match key.name? with
    | some name => do return (name, ← item.encode) :: (← encodeEntries rest)
    | none => .error .keyNotText
end

mutual
def ofValue : Value → Data
  | .null => .null
  | .boolean b => .boolean b
  | .number n => .number n
  | .text s => .text s
  | .array items => .sequence (ofItems items)
  | .object members => .mapping (ofMembers members)

def ofItems : List Value → List Data
  | [] => []
  | v :: rest => ofValue v :: ofItems rest

def ofMembers : List (String × Value) → List (Data × Data)
  | [] => []
  | (name, v) :: rest => (.text name, ofValue v) :: ofMembers rest
end

end Data
end MarkdownServer.Json
