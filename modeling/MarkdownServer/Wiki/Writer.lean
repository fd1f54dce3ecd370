import MarkdownServer.Text.Blank
import MarkdownServer.Markdown.Event
/- The writer of raw wiki markup. It takes the events of a document one by one. Code is kept apart
   from the markup and represented in it by its number between two NULs. All buffers hold their
   text newest first. -/
set_option autoImplicit false

namespace MarkdownServer.Wiki

open Markdown (Event Style Target)

inductive ListKind where
  | bullet
  | ordered
deriving DecidableEq, Repr

def ListKind.marker : ListKind → Char
  | .bullet => '*'
  | .ordered => '#'

inductive Container where
  | item
  | quote
deriving DecidableEq, Repr

def escapeTextChar (c : Char) : List Char :=
  if c = '{' ∨ c = '}' then ['\\', c] else [c]

def escapeText (text : List Char) : List Char :=
  text.flatMap escapeTextChar

def escapeCodeChar (c : Char) : List Char :=
  if c = '\\' ∨ c = '{' ∨ c = '}' then ['\\', c] else [c]

def escapeCode (code : List Char) : List Char :=
  code.flatMap escapeCodeChar

def codeSpan (code : List Char) : List Char :=
  '{' :: '{' :: escapeCode code ++ ['}', '}']

def codeParameters (language theme : Option String) : List String :=
  let ofLanguage :=
    match language with
    | some "mermaid" => ["language=text", "title=mermaid", "collapse=true"]
    | some "" => []
    | some name => ["language=" ++ name]
    | none => []
  ofLanguage ++ (theme.map ("theme=" ++ ·)).toList

/-- A code macro; the line end behind the last line of its text belongs to the macro. -/
def codeMacro (language theme : Option String) (text : List Char) : List Char :=
  let text := if text.getLast? = some '\n' then text.dropLast else text
  let parameters := codeParameters language theme
  let header := if parameters.isEmpty then "" else ":" ++ "|".intercalate parameters
  "\x7bcode".toList ++ header.toList ++ "\x7d\n".toList ++ text ++ "\n\x7bcode\x7d".toList

inductive Goal where
  | link (email : Bool) (url : List Char)
  | image (url : List Char)
deriving DecidableEq, Repr

def Goal.render (text : List Char) : Goal → List Char
  | .link true url => "[mailto:".toList ++ url ++ [']']
  | .link false url =>
      if text.isEmpty ∨ text = url then '[' :: url ++ [']']
      else '[' :: text ++ '|' :: url ++ [']']
  | .image url =>
      if text.isEmpty then '!' :: url ++ ['!'] else '!' :: url ++ "|alt=".toList ++ text ++ ['!']

structure Capture where
  goal : Goal
  text : List Char
deriving Repr

structure OpenCode where
  language : Option String
  text : List Char
deriving Repr

structure Writer where
  output : List Char := []
  captures : List Capture := []
  kept : Array (List Char) := #[]
  lists : List ListKind := []
  containers : List Container := []
  code : Option OpenCode := none
  inHead : Bool := false
  cells : Nat := 0
deriving Repr

namespace Writer

def buffer (w : Writer) : List Char :=
  match w.captures with
  | capture :: _ => capture.text
  | [] => w.output

def setBuffer (w : Writer) (text : List Char) : Writer :=
  match w.captures with
  | capture :: rest => { w with captures := { capture with text } :: rest }
  | [] => { w with output := text }

def write (w : Writer) (text : List Char) : Writer :=
  w.setBuffer (text.reverse ++ w.buffer)

def writeString (w : Writer) (text : String) : Writer :=
  w.write text.toList

def freshLine (w : Writer) : Writer :=
  match w.buffer with
  | [] => w
  | c :: _ => if c = '\n' then w else w.write ['\n']

def placeholder (index : Nat) : List Char :=
  '\x00' :: (toString index).toList ++ ['\x00']

def keep (w : Writer) (piece : List Char) : Writer :=
  { w with kept := w.kept.push piece }.write (placeholder w.kept.size)

def itemPrefix (w : Writer) : List Char :=
  (if w.lists.isEmpty then ['*'] else w.lists.reverse.map ListKind.marker) ++ [' ']

def styleMark : Style → Char
  | .emphasis => '_'
  | .strong => '*'
  | .struck => '-'

def start (w : Writer) : Markdown.Tag → Writer
  | .heading level => w.writeString ("h" ++ toString level ++ ". ")
  | .quote =>
      let w := w.writeString "\x7bquote\x7d\n"
      { w with containers := .quote :: w.containers }
  | .code info => { w with code := some ⟨info.map Text.trim, []⟩ }
  | .list number =>
      let w := if w.lists.isEmpty then w else w.freshLine
      { w with lists := (if number.isSome then .ordered else .bullet) :: w.lists }
  | .item =>
      let w := w.write w.itemPrefix
      { w with containers := .item :: w.containers }
  | .tableHead => { w with inHead := true, cells := 0 }.writeString "|| "
  | .tableRow => { w with cells := 0 }.writeString "| "
  | .tableCell =>
      let w := if w.cells = 0 then w else w.writeString (if w.inHead then " || " else " | ")
      { w with cells := w.cells + 1 }
  | .styled style => w.write [styleMark style]
  | .link email target =>
      { w with captures := ⟨.link email target.url.toList, []⟩ :: w.captures }
  | .image target => { w with captures := ⟨.image target.url.toList, []⟩ :: w.captures }
  | .paragraph => w
  | .html => w
  | .table _ => w

def release (w : Writer) : Writer :=
  match w.captures with
  | capture :: rest =>
      { w with captures := rest }.write (capture.goal.render capture.text.reverse)
  | [] => w

def stop (theme : Option String) (w : Writer) : Markdown.Tag → Writer
  | .paragraph => if w.containers.head? = some .item then w else w.writeString "\n\n"
  | .heading _ => w.writeString "\n\n"
  | .quote =>
      let w := w.setBuffer (w.buffer.dropWhile (· = '\n'))
      let w := w.writeString "\n\x7bquote\x7d\n\n"
      { w with containers := w.containers.tail }
  | .code _ =>
      match w.code with
      | some code =>
          ({ w with code := none }.keep (codeMacro code.language theme code.text.reverse)).writeString
            "\n\n"
      | none => w
  | .html => w.freshLine
  | .list _ =>
      let w := { w with lists := w.lists.tail }
      if w.lists.isEmpty then w.write ['\n'] else w
  | .item =>
      let w := w.freshLine
      { w with containers := w.containers.tail }
  | .tableHead => { w.writeString " ||\n" with inHead := false }
  | .tableRow => w.writeString " |\n"
  | .table _ => w.write ['\n']
  | .tableCell => w
  | .styled style => w.write [styleMark style]
  | .link _ _ => w.release
  | .image _ => w.release

def step (theme : Option String) (w : Writer) : Event → Writer
  | .start tag => w.start tag
  | .stop tag => w.stop theme tag
  | .text content =>
      match w.code with
      | some code => { w with code := some { code with text := content.toList.reverse ++ code.text } }
      | none => w.write (escapeText content.toList)
  | .code content => w.keep (codeSpan content.toList)
  | .html content => w.writeString content
  | .inlineHtml content => w.writeString content
  | .softBreak => w.write ['\n']
  | .hardBreak => w.write ['\n']
  | .rule => w.writeString "----\n\n"
  | .task done => w.writeString (if done then "(/) " else "(x) ")

def finish (w : Writer) : List Char :=
  (w.captures.flatMap Capture.text ++ w.output).reverse

end Writer
end MarkdownServer.Wiki
