import MarkdownServer.Json.Value
/- Descriptions of the shape of a JSON value, as far as tools need them. -/
set_option autoImplicit false

namespace MarkdownServer.Json

inductive Schema where
  | text (description : Option String)
  | array (items : Schema)
  | object (properties : List (String × Schema)) (required : List String)
deriving Repr

namespace Schema

def typeMember (name : String) : String × Value :=
  ("type", .text name)

def describe (description : Option String) : List (String × Value) :=
  (description.map fun d => ("description", .text d)).toList

def requireMember (required : List String) : List (String × Value) :=
  if required.isEmpty then [] else [("required", .array (required.map .text))]

mutual
def toValue : Schema → Value
  | .text description => .ofMembers (typeMember "string" :: describe description)
  | .array items => .ofMembers [typeMember "array", ("items", items.toValue)]
  | .object properties required =>
    .ofMembers (typeMember "object" :: ("properties", .ofMembers (toMembers properties)) ::
      requireMember required)

def toMembers : List (String × Schema) → List (String × Value)
  | [] => []
  | (name, schema) :: rest => (name, schema.toValue) :: toMembers rest
end

end Schema
end MarkdownServer.Json
