import MarkdownServer.Tools.Tool
import MarkdownServer.Wiki.Theme
/- Reading the arguments of a call. -/
set_option autoImplicit false

namespace MarkdownServer.Tools

open Json (Value)

def notText (name : String) : Fault :=
  .invalidArguments ("parameter '" ++ name ++ "' must be a string")

def requiredText (arguments : Value) (name : String) : Except Fault String :=
  match arguments.member? name with
  | some (.text s) => .ok s
  | some _ => .error (notText name)
  | none => .error (.invalidArguments ("missing required parameter: " ++ name))

def optionalText (arguments : Value) (name : String) : Except Fault (Option String) :=
  match arguments.member? name with
  | some (.text s) => .ok (some s)
  | some .null | none => .ok none
  | some _ => .error (notText name)

def unknownTheme (theme : String) : Log.Record :=
  .warn "Unrecognised code block theme, passing it through" [("theme", .quoted theme)]

def optionsFor (defaults : Wiki.Options) (theme : Option String) :
    Wiki.Options × List Log.Record :=
  match Wiki.Options.normaliseTheme theme with
  | none => (defaults, [])
  | some theme =>
    (defaults.setTheme (some theme), if Wiki.isKnownTheme theme then [] else [unknownTheme theme])

end MarkdownServer.Tools
