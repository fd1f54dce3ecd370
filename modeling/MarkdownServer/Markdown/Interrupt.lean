import MarkdownServer.Markdown.Container
import MarkdownServer.Markdown.Table
import MarkdownServer.Markdown.RawHtml
/- Which lines end a paragraph that stands open above them. -/
set_option autoImplicit false

namespace MarkdownServer.Markdown

structure Here where
  text : List Char
  ending : LineEnd
  following : List Line

namespace Here

def emptyItem (behind : List Char) (following : List Line) : Bool :=
  blankRest behind && (following.head?.all fun line => blankRest line.text)

/-- May a list item that starts here end a paragraph? Where the line has left the paragraph's
    container, or follows a table, any item may; otherwise it must have text, and a number must
    be one. -/
def startsItem (here : Here) (inside table : Bool) : Bool :=
  match ListMarker.read here.text with
  | none => false
  | some (width, marker, start) =>
      let behind := here.text.drop width
      (match behind with
        | [] => true
        | c :: _ => c == ' ' || c == '\t') &&
      (!inside || table ||
        ((ListMarker.number? marker start).all (· == 1) && !emptyItem behind here.following))

def startsHtml (here : Here) : Bool :=
  match here.text with
  | '<' :: rest => (RawHtml.endMark rest).isSome || RawHtml.startsBlockElement rest
  | _ => false

def tableBelow (frames : List Frame) (here : Here) : Option (List Alignment) :=
  match Table.headColumns? here.text, here.following with
  | some width, line :: _ =>
      let (count, c) := Frame.enterAll frames (.start line)
      if count = frames.length then
        (Table.delimiterRow? c.rest).filter fun columns => columns.length == width
      else none
  | _, _ => none

def interrupts (here : Here) (inside table : Bool) : Bool :=
  here.text.isEmpty || isRule here.text || (headingLevel? here.text).isSome ||
    (fence? here.text here.ending here.following).isSome || here.text.head? == some '>' ||
    here.startsItem inside table || here.startsHtml

def interruptsParagraph (frames : List Frame) (here : Here) (inside : Bool) : Bool :=
  here.interrupts inside false ||
    (here.text.head? == some '|' && (here.tableBelow frames).isSome)

def endsText (frames : List Frame) (here : Here) (inside : Bool) : Bool :=
  here.interruptsParagraph frames inside || (inside && (underlineLevel? here.text).isSome)

end Here
end MarkdownServer.Markdown
