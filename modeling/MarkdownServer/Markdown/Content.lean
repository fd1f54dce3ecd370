import MarkdownServer.Markdown.Document
import MarkdownServer.Markdown.Source
/- The source of a run of inline text: what is left of its lines once the marks of the containers
   around it are taken off. -/
set_option autoImplicit false

namespace MarkdownServer.Markdown

structure Content where
  text : List Char
  /-- For lines with container marks: where the line starts in `text`, and the marks. -/
  margins : List (Nat × List Char) := []
  before : Option Char := none
  cell : Bool := false
  task : Option Bool := none
  trailer : List Char := []
deriving Repr

namespace Content

def leftOf (c : Content) (position : Nat) (previous : Option Char) : Option Char :=
  match c.margins.lookup position with
  | some marks => marks.getLast?
  | none => previous

def source (c : Content) (position : Nat) : List Char → List Char
  | [] => []
  | x :: rest =>
      let marks := if x = '\n' ∨ x = '\r' then (c.margins.lookup (position + 1)).getD [] else []
      x :: marks ++ c.source (position + 1) rest

end Content

abbrev Draft := Block Content

end MarkdownServer.Markdown
