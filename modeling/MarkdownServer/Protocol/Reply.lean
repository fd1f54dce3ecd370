import MarkdownServer.Json.Printer
/- The replies to requests, as JSON-RPC 2.0 writes them. -/
set_option autoImplicit false

namespace MarkdownServer.Protocol

open Json (Value)

inductive RequestId where
  | number (i : Int)
  | text (s : String)
deriving DecidableEq, Repr

namespace RequestId

def isSmall (i : Int) : Bool :=
  -9223372036854775808 ≤ i && i ≤ 9223372036854775807

def ofValue? : Value → Option RequestId
  | .text s => some (.text s)
  | .number (.integer i) => if isSmall i then some (.number i) else none
  | _ => none

def toValue : RequestId → Value
  | .number i => .number (.integer i)
  | .text s => .text s

def shown : RequestId → String
  | .number i => toString i
  | .text s => s

end RequestId

inductive ErrorCode where
  | parseError
  | invalidRequest
  | methodNotFound
  | invalidParams
  | internalError
deriving DecidableEq, Repr

def ErrorCode.number : ErrorCode → Int
  | .parseError => -32700
  | .invalidRequest => -32600
  | .methodNotFound => -32601
  | .invalidParams => -32602
  | .internalError => -32603

structure Failure where
  id : Option RequestId
  code : ErrorCode
  message : String
deriving DecidableEq, Repr

namespace Failure

def parseError : Failure :=
  ⟨none, .parseError, "Parse error"⟩

def invalidRequest (id : Option RequestId) (message : String) : Failure :=
  ⟨id, .invalidRequest, message⟩

def methodNotFound (id : RequestId) (method : String) : Failure :=
  ⟨some id, .methodNotFound, "Method not found: " ++ method⟩

def invalidParams (id : RequestId) (message : String) : Failure :=
  ⟨some id, .invalidParams, message⟩

def internalError (id : RequestId) (message : String) : Failure :=
  ⟨some id, .internalError, message⟩

end Failure

inductive Reply where
  | success (id : RequestId) (result : Value)
  | failure (f : Failure)
deriving Repr

namespace Reply

def id? : Reply → Option RequestId
  | .success id _ => some id
  | .failure f => f.id

def isFailure : Reply → Bool
  | .success _ _ => false
  | .failure _ => true

def versionMember : String × Value :=
  ("jsonrpc", .text "2.0")

def idMember (id : Option RequestId) : List (String × Value) :=
  (id.map fun id => ("id", id.toValue)).toList

def toValue : Reply → Value
  | .success id result => .object (versionMember :: idMember (some id) ++ [("result", result)])
  | .failure f =>
    .object (versionMember :: idMember f.id ++
      [("error", .object [("code", .number (.integer f.code.number)), ("message", .text f.message)])])

def json (reply : Reply) : String :=
  reply.toValue.compact

end Reply
end MarkdownServer.Protocol
