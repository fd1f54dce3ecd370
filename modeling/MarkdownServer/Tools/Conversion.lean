import MarkdownServer.Json.Schema
import MarkdownServer.Tools.Arguments
import MarkdownServer.Wiki.Convert
/- The tools that take Markdown. -/
set_option autoImplicit false

namespace MarkdownServer.Tools

open Json (Schema Value)

def markdownProperty : String × Schema :=
  ("markdown", .text (some "Markdown source text"))

def themeProperty : String × Schema :=
  ("theme", .text (some ("Code block theme (" ++ ", ".intercalate Wiki.knownThemes ++
    "). Omit to use the server default (no theme unless configured).")))

def renderMarkdown (limit : Nat) : Tool where
  descriptor := {
    name := "render_markdown"
    description :=
      "Render a Markdown document (CommonMark with GFM tables, strikethrough and " ++
        "task lists) to HTML. Empty input returns an empty string."
    inputSchema := (Schema.object [markdownProperty] ["markdown"]).toValue
    outputSchema := none }
  run := fun arguments =>
    { result := do
        let source ← requiredText arguments "markdown"
        return .text (← (Rendering.toHtml source limit).mapError .rendering)
      log := [] }

def convertFor (defaults : Wiki.Options) (theme : Option String) (source : String) :
    Except Fault String × List Log.Record :=
  let (options, log) := optionsFor defaults theme
  ((Wiki.convert options source).mapError .rendering, log)

def convertMarkdown (defaults : Wiki.Options) : Tool where
  descriptor := {
    name := "convert_markdown"
    description :=
      "Convert a Markdown document to Confluence wiki markup. Headings, emphasis, " ++
        "links, images, lists, block quotes, tables and fenced code blocks are " ++
        "supported."
    inputSchema := (Schema.object [markdownProperty, themeProperty] ["markdown"]).toValue
    outputSchema := none }
  run := fun arguments =>
    let read : Except Fault (String × Option String) := do
      return (← requiredText arguments "markdown", ← optionalText arguments "theme")
    match read with
    | .error fault => ⟨.error fault, []⟩
    | .ok (source, theme) =>
      let (page, log) := convertFor defaults theme source
      ⟨page.map .text, log⟩

end MarkdownServer.Tools
