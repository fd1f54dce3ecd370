import MarkdownServer.Markdown.Scan
import MarkdownServer.Markdown.Structure
/- Reading a document: first its blocks and link definitions, then the inline elements of its
   text. -/
set_option autoImplicit false

namespace MarkdownServer.Markdown

def referenceBudget (sourceSize : Nat) : Nat :=
  max sourceSize 100000

def parse (source : String) : Document :=
  let b := Builder.readLines {} none (Line.ofText source.toList)
  (Block.mapContents (Content.inlines b.references) b.finish
    (referenceBudget source.utf8ByteSize)).1

end MarkdownServer.Markdown
