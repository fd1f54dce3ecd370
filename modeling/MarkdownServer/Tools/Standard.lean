import MarkdownServer.Tools.Registry
import MarkdownServer.Tools.Pages
/- The registry of the tools that this server has. -/
set_option autoImplicit false

namespace MarkdownServer.Tools

def standardTools (defaults : Wiki.Options) : List Tool :=
  [renderMarkdown defaults.limit, convertMarkdown defaults, listTemplates, getTemplate,
    convertTemplate defaults]

theorem standard_names (defaults : Wiki.Options) :
    (standardTools defaults).map Tool.name =
      ["render_markdown", "convert_markdown", "list_templates", "get_template",
        "convert_template"] :=
  rfl

def Registry.standard (defaults : Wiki.Options) : Registry where
  tools := standardTools defaults
  distinct := by
    rw [standard_names]
    decide

end MarkdownServer.Tools
