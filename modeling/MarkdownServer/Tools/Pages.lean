import MarkdownServer.Templates
import MarkdownServer.Tools.Conversion
/- The tools that hand out page templates. -/
set_option autoImplicit false

namespace MarkdownServer.Tools

open Json (Schema Value)
open Templates (Template)

def plainText (name : String) : String × Schema :=
  (name, .text none)

def templateProperty : String × Schema :=
  ("template_id", .text (some ("Template ID (" ++ ", ".intercalate Templates.ids ++ ")")))

def templateSummary (t : Template) : List (String × Value) :=
  [("id", .text t.id), ("name", .text t.name), ("description", .text t.description)]

def templateValue (t : Template) : Value :=
  .object (templateSummary t ++ [("content", .text t.content)])

def findTemplate (arguments : Value) : Except Fault Template := do
  let id ← requiredText arguments "template_id"
  match Templates.find? id with
  | some t => return t
  | none => throw (.templateNotFound id)

def listTemplates : Tool where
  descriptor := {
    name := "list_templates"
    description :=
      "List the available Markdown document templates (ID, name and description)."
    inputSchema := (Schema.object [] []).toValue
    outputSchema := some (Schema.object
      [("templates", .array (.object [plainText "id", plainText "name", plainText "description"]
        ["id", "name", "description"]))]
      ["templates"]).toValue }
  run := fun _ =>
    let list := Templates.all.map fun t => Value.object (templateSummary t)
    ⟨Output.ofData (.ofValue (.object [("templates", .array list)])), []⟩

def getTemplate : Tool where
  descriptor := {
    name := "get_template"
    description := "Get a Markdown document template, including its Markdown content."
    inputSchema := (Schema.object [templateProperty] ["template_id"]).toValue
    outputSchema := some (Schema.object
      [plainText "id", plainText "name", plainText "description", plainText "content"]
      ["id", "name", "description", "content"]).toValue }
  run := fun arguments =>
    ⟨(findTemplate arguments).bind fun t => Output.ofData (.ofValue (templateValue t)), []⟩

def convertedTemplate (t : Template) (page : String) : Value :=
  .object [("id", .text t.id), ("name", .text t.name), ("confluenceMarkup", .text page)]

def convertTemplate (defaults : Wiki.Options) : Tool where
  descriptor := {
    name := "convert_template"
    description := "Convert a Markdown document template to Confluence wiki markup."
    inputSchema := (Schema.object [templateProperty, themeProperty] ["template_id"]).toValue
    outputSchema := some (Schema.object
      [plainText "id", plainText "name", plainText "confluenceMarkup"]
      ["id", "name", "confluenceMarkup"]).toValue }
  run := fun arguments =>
    let read : Except Fault (Template × Option String) := do
      return (← findTemplate arguments, ← optionalText arguments "theme")
    match read with
    | .error fault => ⟨.error fault, []⟩
    | .ok (t, theme) =>
      let (page, log) := convertFor defaults theme t.content
      ⟨page.bind fun page => Output.ofData (.ofValue (convertedTemplate t page)), log⟩

end MarkdownServer.Tools
