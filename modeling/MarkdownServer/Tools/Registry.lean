import MarkdownServer.Tools.Tool
/- The registry of tools. No two of its tools have one name. -/
set_option autoImplicit false

namespace MarkdownServer.Tools

open Json (Value)

structure Registry where
  tools : List Tool
  distinct : (tools.map Tool.name).Nodup

namespace Registry

inductive Fault where
  | duplicateTool (name : String)
  | unknownTool (name : String)
deriving DecidableEq, Repr

def Fault.message : Fault → String
  | .duplicateTool name => "tool already registered: " ++ name
  | .unknownTool name => "Unknown tool: " ++ name

def empty : Registry :=
  ⟨[], .nil⟩

def names (registry : Registry) : List String :=
  registry.tools.map Tool.name

def size (registry : Registry) : Nat :=
  registry.tools.length

def descriptors (registry : Registry) : List Descriptor :=
  registry.tools.map Tool.descriptor

def find? (registry : Registry) (name : String) : Option Tool :=
  registry.tools.find? fun tool => tool.name == name

def add (registry : Registry) (tool : Tool) (free : tool.name ∉ registry.names) : Registry where
  tools := registry.tools ++ [tool]
  distinct := by
    simpa [List.nodup_append, List.mem_map] using
      And.intro registry.distinct fun other member same =>
        free (List.mem_map.mpr ⟨other, member, same⟩)

def offer (registry : Registry) (tool : Tool) : Registry × Except Fault Unit :=
  if taken : tool.name ∈ registry.names then (registry, .error (.duplicateTool tool.name))
  else (registry.add tool taken, .ok ())

def register (registry : Registry) (tool : Tool) : Except Fault Registry :=
  (registry.offer tool).2.map fun _ => (registry.offer tool).1

def failedCall (name : String) (fault : Tools.Fault) : Log.Record :=
  .warn "Tool call failed" [("tool", .quoted name), ("error", .plain fault.message)]

def invoke (registry : Registry) (name : String) (arguments : Value) :
    Except Fault (CallResult × List Log.Record) :=
  match registry.find? name with
  | none => .error (.unknownTool name)
  | some tool =>
    let outcome := tool.run arguments
    let log :=
      match outcome.result with
      | .ok _ => outcome.log
      | .error fault => outcome.log ++ [failedCall name fault]
    .ok (.ofResult outcome.result, log)

def describe (registry : Registry) : String :=
  "ToolRegistry \x7b tools: [" ++ ", ".intercalate (registry.names.map Text.quoted) ++ "] \x7d"

end Registry
end MarkdownServer.Tools
