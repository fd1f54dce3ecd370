import MarkdownServer.Markdown.Document
/- Documents as sequences of events: the elements in reading order, where elements that hold others
   have an event at their start and one at their end. -/
set_option autoImplicit false

namespace MarkdownServer.Markdown

inductive Tag where
  | paragraph
  | heading (level : Nat)
  | quote
  | code (info : Option String)
  | html
  | list (start : Option Nat)
  | item
  | table (columns : List Alignment)
  | tableHead
  | tableRow
  | tableCell
  | styled (style : Style)
  | link (email : Bool) (target : Target)
  | image (target : Target)
deriving DecidableEq, Repr

inductive Event where
  | start (tag : Tag)
  | stop (tag : Tag)
  | text (content : String)
  | code (content : String)
  | html (content : String)
  | inlineHtml (content : String)
  | softBreak
  | hardBreak
  | rule
  | task (done : Bool)
deriving DecidableEq, Repr

namespace Event

def within (tag : Tag) (events : List Event) : List Event :=
  .start tag :: (events ++ [.stop tag])

mutual
def ofInline : Inline → List Event
  | .text content => [.text content]
  | .code content => [.code content]
  | .html content => [.inlineHtml content]
  | .softBreak => [.softBreak]
  | .hardBreak => [.hardBreak]
  | .task done => [.task done]
  | .styled style children => within (.styled style) (ofInlines children)
  | .link email target children => within (.link email target) (ofInlines children)
  | .image target children => within (.image target) (ofInlines children)

def ofInlines : List Inline → List Event
  | [] => []
  | element :: elements => ofInline element ++ ofInlines elements
end

def ofHtmlLine (line : HtmlLine) : List Event :=
  (if line.padding = 0 then [] else [.text (String.ofList (List.replicate line.padding ' '))]) ++
    [.html line.content]

def ofCells (cells : List (List Inline)) : List Event :=
  cells.flatMap fun cell => within .tableCell (ofInlines cell)

mutual
def ofBlock : Block (List Inline) → List Event
  | .paragraph content => within .paragraph (ofInlines content)
  | .tight content => ofInlines content
  | .heading level content => within (.heading level) (ofInlines content)
  | .quote children => within .quote (ofBlocks children)
  | .list number items => within (.list number) (ofItems items)
  | .code info content => within (.code info) [.text content]
  | .html lines => within .html (lines.flatMap ofHtmlLine)
  | .rule => [.rule]
  | .table columns head rows =>
      within (.table columns) (within .tableHead (ofCells head) ++
        rows.flatMap fun row => within .tableRow (ofCells row))

def ofBlocks : List (Block (List Inline)) → List Event
  | [] => []
  | block :: blocks => ofBlock block ++ ofBlocks blocks

def ofItems : List (List (Block (List Inline))) → List Event
  | [] => []
  | item :: items => within .item (ofBlocks item) ++ ofItems items
end

end Event

def Document.events (document : Document) : List Event :=
  Event.ofBlocks document

end MarkdownServer.Markdown
