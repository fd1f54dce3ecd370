import MarkdownServer.Text.Blank
import MarkdownServer.Markdown.Html
import MarkdownServer.Markdown.Parse
/- Rendering with a limit on the size of the input, and rendering to HTML. -/
set_option autoImplicit false

namespace MarkdownServer

namespace Rendering

def defaultLimit : Nat := 1024 * 1024

inductive Fault where
  | inputTooLarge (size limit : Nat)
  | nulCharacter (offset : Nat)
deriving DecidableEq, Repr

def Fault.message : Fault → String
  | .inputTooLarge size limit =>
      "Markdown input is too large: " ++ toString size ++ " bytes (limit " ++ toString limit ++
        " bytes)"
  | .nulCharacter offset =>
      "Markdown input contains a NUL character at byte offset " ++ toString offset

def checkSize (source : String) (limit : Nat) : Except Fault Unit :=
  if limit < source.utf8ByteSize then .error (.inputTooLarge source.utf8ByteSize limit) else .ok ()

def toHtml (source : String) (limit : Nat) : Except Fault String := do
  checkSize source limit
  if Text.allBlank source then return ""
  return Markdown.Html.render (Markdown.parse source)

end Rendering
end MarkdownServer
