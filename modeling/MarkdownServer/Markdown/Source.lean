/- Source lines, and a cursor that moves along one line by columns. A tab reaches to the next
   multiple of four columns; a cursor that takes only a part of it still owes the other columns. -/
set_option autoImplicit false

namespace MarkdownServer.Markdown

inductive LineEnd where
  | absent
  | lf
  | cr
  | crlf
deriving DecidableEq, Repr

def LineEnd.chars : LineEnd → List Char
  | .absent => []
  | .lf => ['\n']
  | .cr => ['\r']
  | .crlf => ['\r', '\n']

structure Line where
  text : List Char
  ending : LineEnd
deriving DecidableEq, Repr

namespace Line

def split (text : List Char) (done : List Line) : List Char → List Line
  | [] => (if text.isEmpty then done else ⟨text.reverse, .absent⟩ :: done).reverse
  | '\r' :: '\n' :: rest => split [] (⟨text.reverse, .crlf⟩ :: done) rest
  | '\r' :: rest => split [] (⟨text.reverse, .cr⟩ :: done) rest
  | '\n' :: rest => split [] (⟨text.reverse, .lf⟩ :: done) rest
  | c :: rest => split (c :: text) done rest

def ofText (source : List Char) : List Line :=
  split [] [] source

/-- The text from here to the end of the next line feed, and how many further lines it covers.
    Lines that end in a lone carriage return do not stop it. -/
def throughFeed (text : List Char) (ending : LineEnd) : List Line → List Char × Nat
  | [] => (text ++ ending.chars, 0)
  | line :: rest =>
      match ending with
      | .cr =>
          let (more, count) := throughFeed line.text line.ending rest
          (text ++ '\r' :: more, count + 1)
      | _ => (text ++ ending.chars, 0)

end Line

def isLineBlank (c : Char) : Bool :=
  c == ' ' || c == '\t' || c == '\x0b' || c == '\x0c'

def isAsciiBlank (c : Char) : Bool :=
  isLineBlank c || c == '\n' || c == '\r'

def blankRest (text : List Char) : Bool :=
  text.all isLineBlank

def dropTrailing (drops : Char → Bool) (text : List Char) : List Char :=
  (text.reverse.dropWhile drops).reverse

def runLength (c : Char) (text : List Char) : Nat :=
  (text.takeWhile (· == c)).length

structure Cursor where
  rest : List Char
  column : Nat
  owed : Nat
deriving DecidableEq, Repr

namespace Cursor

def start (line : Line) : Cursor :=
  ⟨line.text, 0, 0⟩

def spaces : Nat → Cursor → Nat × Cursor
  | 0, c => (0, c)
  | n + 1, c =>
      if 0 < c.owed then
        let (taken, c) := spaces n { c with owed := c.owed - 1 }
        (taken + 1, c)
      else
        match c.rest with
        | ' ' :: rest =>
            let (taken, c) := spaces n ⟨rest, c.column + 1, 0⟩
            (taken + 1, c)
        | '\t' :: rest =>
            let width := 4 - c.column % 4
            let (taken, c) := spaces n ⟨rest, c.column + width, width - 1⟩
            (taken + 1, c)
        | _ => (0, c)

def skipSpaces (c : Cursor) : Cursor :=
  { c with rest := c.rest.dropWhile fun x => x == ' ' || x == '\t', owed := 0 }

def advance (c : Cursor) (count : Nat) : Cursor :=
  { c with rest := c.rest.drop count, column := c.column + count }

def atEnd (c : Cursor) : Bool :=
  c.rest.isEmpty

def passed (c : Cursor) (line : Line) : List Char :=
  line.text.take (line.text.length - c.rest.length)

end Cursor
end MarkdownServer.Markdown
