import MarkdownServer.Rendering
import MarkdownServer.Wiki.Cleanup
import MarkdownServer.Wiki.Theme
import MarkdownServer.Wiki.Writer
/- Conversion of Markdown to wiki markup. -/
set_option autoImplicit false

namespace MarkdownServer.Wiki

open Rendering (Fault)

def Writer.ofDocument (theme : Option String) (document : Markdown.Document) : Writer :=
  document.events.foldl (Writer.step theme) {}

def pageOf (theme : Option String) (document : Markdown.Document) : List Char :=
  let w := Writer.ofDocument theme document
  Cleanup.run w.finish w.kept

def nulOffset? (source : List Char) : Option Nat :=
  if source.contains '\x00' then
    some ((source.takeWhile (· != '\x00')).foldl (fun n c => n + c.utf8Size) 0)
  else none

def convert (options : Options) (source : String) : Except Fault String := do
  Rendering.checkSize source options.limit
  if let some offset := nulOffset? source.toList then throw (.nulCharacter offset)
  if Text.allBlank source then return ""
  return String.ofList (pageOf options.theme (Markdown.parse source))

end MarkdownServer.Wiki
