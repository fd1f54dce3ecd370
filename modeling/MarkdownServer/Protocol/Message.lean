import MarkdownServer.Json.Draft
import MarkdownServer.Json.Mismatch
import MarkdownServer.Protocol.Reply
/- The messages of a client: requests, which get a reply, and notifications, which get none. -/
set_option autoImplicit false

namespace MarkdownServer.Protocol

open Json (Mismatch Value lookup?)

structure Request where
  id : RequestId
  method : String
  params : Option Value
deriving Repr

inductive Message where
  | request (r : Request)
  | notification (method : String)
deriving Repr

inductive Refusal where
  | notJson
  | notObject
  | wrongVersion
  | malformed (m : Mismatch)
  | emptyMethod (id : Option RequestId)
deriving DecidableEq, Repr

def Refusal.failure : Refusal → Failure
  | .notJson => .parseError
  | .notObject => .invalidRequest none "Expected a JSON-RPC object"
  | .wrongVersion => .invalidRequest none "jsonrpc must be \"2.0\""
  | .malformed m => .invalidRequest none ("Invalid Request: " ++ m.message)
  | .emptyMethod id => .invalidRequest id "method must not be empty"

namespace Message

def id? : Message → Option RequestId
  | .request r => some r.id
  | .notification _ => none

def method : Message → String
  | .request r => r.method
  | .notification m => m

def paramsOf (members : List (String × Value)) : Option Value :=
  (lookup? "params" members).filter fun v => !v.isNull

def methodOf (members : List (String × Value)) : Except Mismatch String := do
  (← Json.require "method" (lookup? "method" members)).asText

/-- A message is a request if it has an id, whatever that is. -/
def ofMembers (members : List (String × Value)) : Except Mismatch Message :=
  match lookup? "id" members with
  | none => (methodOf members).map .notification
  | some v =>
    match RequestId.ofValue? v with
    | none => .error (.noAlternative "RequestId")
    | some id => (methodOf members).map fun method => .request ⟨id, method, paramsOf members⟩

def ofValue : Value → Except Refusal Message
  | .object members =>
    if (lookup? "jsonrpc" members).bind Value.text? = some "2.0" then
      match ofMembers members with
      | .error m => .error (.malformed m)
      | .ok message => if message.method = "" then .error (.emptyMethod message.id?) else .ok message
    else .error .wrongVersion
  | _ => .error .notObject

def parse (line : String) : Except Refusal Message :=
  match Value.read line with
  | .error _ => .error .notJson
  | .ok v => ofValue v

end Message
end MarkdownServer.Protocol
