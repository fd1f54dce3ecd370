import MarkdownServer.Protocol.Reply
/- Requests and responses of HTTP. -/
set_option autoImplicit false

namespace MarkdownServer.Http

structure Request where
  method : String
  target : String
  headers : List (String × String)
  body : List UInt8

structure Response where
  status : Nat
  headers : List (String × String)
  body : String
deriving DecidableEq, Repr

def sessionHeader : String := "mcp-session-id"

/-- A value that can be read as text: visible ASCII characters, blanks and tabs. -/
def isReadable (value : String) : Bool :=
  value.toList.all fun c => c == '\t' || (32 ≤ c.toNat && c.toNat < 127)

namespace Request

def header? (request : Request) (name : String) : Option String :=
  (request.headers.find? fun h => h.1.toLower == name).map Prod.snd

def session? (request : Request) : Option String :=
  (request.header? sessionHeader).filter isReadable

def path (request : Request) : String :=
  String.ofList (request.target.toList.takeWhile fun c => c != '?' && c != '#')

end Request

namespace Response

def empty (status : Nat) : Response :=
  ⟨status, [], ""⟩

def text (status : Nat) (body : String) : Response :=
  ⟨status, [("content-type", "text/plain; charset=utf-8")], body⟩

def json (status : Nat) (reply : Protocol.Reply) : Response :=
  ⟨status, [("content-type", "application/json")], reply.json⟩

def withHeader (response : Response) (name value : String) : Response :=
  { response with headers := response.headers ++ [(name, value)] }

end Response
end MarkdownServer.Http
