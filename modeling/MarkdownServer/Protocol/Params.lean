import MarkdownServer.Json.Mismatch
/- The params of the requests that take some. Each is an object, or an array of its first fields in
   the order of the structure. Of several faults the first one in the order of the members'
   names counts, or the first one of the array. -/
set_option autoImplicit false

namespace MarkdownServer.Protocol

open Json (Mismatch Value checkLength lookup? readOptional require)

structure Client where
  name : String
  version : Option String
deriving DecidableEq, Repr

def Client.ofValue : Value → Except Mismatch Client
  | .object members => do
    let name ← readOptional Value.asText (lookup? "name" members)
    let version ← readOptional Value.asOptionalText (lookup? "version" members)
    return ⟨← require "name" name, version.join⟩
  | .array [] => .error (.wrongLength 0 "struct ClientInfo with 2 elements")
  | .array (first :: rest) => do
    let name ← first.asText
    let version ← readOptional Value.asOptionalText rest.head?
    checkLength 2 (first :: rest)
    return ⟨name, version.join⟩
  | v => .error (.wrongType v.found "struct ClientInfo")

def Client.ofOptional : Value → Except Mismatch (Option Client)
  | .null => .ok none
  | v => (ofValue v).map some

structure InitializeParams where
  version : String
  client : Option Client
deriving DecidableEq, Repr

def InitializeParams.ofValue : Value → Except Mismatch InitializeParams
  | .object members => do
    let client ← readOptional Client.ofOptional (lookup? "clientInfo" members)
    let version ← readOptional Value.asText (lookup? "protocolVersion" members)
    return ⟨← require "protocolVersion" version, client.join⟩
  | .array [] => .error (.wrongLength 0 "struct InitializeParams with 3 elements")
  | .array (first :: rest) => do
    let version ← first.asText
    let client ← readOptional Client.ofOptional (rest.drop 1).head?
    checkLength 3 (first :: rest)
    return ⟨version, client.join⟩
  | v => .error (.wrongType v.found "struct InitializeParams")

structure CallParams where
  name : String
  arguments : Value
deriving Repr

def CallParams.ofValue : Value → Except Mismatch CallParams
  | .object members => do
    let name ← readOptional Value.asText (lookup? "name" members)
    return ⟨← require "name" name, (lookup? "arguments" members).getD .null⟩
  | .array [] => .error (.wrongLength 0 "struct ToolCallParams with 2 elements")
  | .array (first :: rest) => do
    let name ← first.asText
    checkLength 2 (first :: rest)
    return ⟨name, rest.head?.getD .null⟩
  | v => .error (.wrongType v.found "struct ToolCallParams")

end MarkdownServer.Protocol
