import MarkdownServer.Json.Data
import MarkdownServer.Log
import MarkdownServer.Rendering
/- Tools: what they are called with, and what comes of it. -/
set_option autoImplicit false

namespace MarkdownServer.Tools

open Json (Value)

structure Descriptor where
  name : String
  description : String
  inputSchema : Value
  outputSchema : Option Value
deriving Repr

def Descriptor.toValue (d : Descriptor) : Value :=
  .object ([("name", .text d.name), ("description", .text d.description),
    ("inputSchema", d.inputSchema)] ++
    (d.outputSchema.map fun schema => ("outputSchema", schema)).toList)

inductive Fault where
  | invalidArguments (message : String)
  | rendering (fault : Rendering.Fault)
  | templateNotFound (id : String)
  | serialisation
deriving DecidableEq, Repr

def Fault.message : Fault → String
  | .invalidArguments message => "Invalid arguments: " ++ message
  | .rendering fault => fault.message
  | .templateNotFound id => "Template not found: " ++ id
  | .serialisation => "Failed to serialise tool output"

inductive Output where
  | text (s : String)
  | json (v : Value)
deriving Repr

def Output.ofData (data : Json.Data) : Except Fault Output :=
  match data.encode with
  | .ok v => .ok (.json v)
  | .error _ => .error .serialisation

structure Outcome where
  result : Except Fault Output
  log : List Log.Record

structure Tool where
  descriptor : Descriptor
  run : Value → Outcome

def Tool.name (tool : Tool) : String :=
  tool.descriptor.name

structure CallResult where
  texts : List String
  structured : Option Value
  isError : Bool
deriving Repr

namespace CallResult

def ofText (s : String) : CallResult :=
  ⟨[s], none, false⟩

def ofFault (fault : Fault) : CallResult :=
  ⟨[fault.message], none, true⟩

def ofOutput : Output → CallResult
  | .text s => ofText s
  | .json v => ⟨[v.pretty], some v, false⟩

def ofResult : Except Fault Output → CallResult
  | .ok output => ofOutput output
  | .error fault => ofFault fault

def textItem (s : String) : Value :=
  .object [("type", .text "text"), ("text", .text s)]

def toValue (r : CallResult) : Value :=
  .object (("content", .array (r.texts.map textItem)) ::
    (r.structured.map fun v => ("structuredContent", v)).toList ++
    (if r.isError then [("isError", .boolean true)] else []))

end CallResult
end MarkdownServer.Tools
