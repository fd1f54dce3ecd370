import MarkdownServer.Markdown.Source
import MarkdownServer.Text.Digits
/- The marks that start or end a block, each recognised from the rest of its line. -/
set_option autoImplicit false

namespace MarkdownServer.Markdown

def isRule (text : List Char) : Bool :=
  match text with
  | [] => false
  | mark :: _ =>
      (mark == '*' || mark == '-' || mark == '_') &&
        text.all (fun c => c == mark || c == ' ' || c == '\t') && 3 ≤ text.count mark

def headingLevel? (text : List Char) : Option Nat :=
  let level := runLength '#' text
  if 1 ≤ level ∧ level ≤ 6 ∧ ((text.drop level).head?.all isAsciiBlank) then some level else none

def underlineLevel? (text : List Char) : Option Nat :=
  match text with
  | c :: _ =>
      if (c == '=' || c == '-') && blankRest (text.drop (runLength c text)) then
        some (if c == '=' then 1 else 2)
      else none
  | [] => none

structure Fence where
  mark : Char
  length : Nat
deriving DecidableEq, Repr

/-- An opening fence. Behind backticks there may be no other backtick, up to the line feed. -/
def fence? (text : List Char) (ending : LineEnd) (following : List Line) : Option Fence :=
  match text with
  | mark :: _ =>
      let length := runLength mark text
      if (mark == '`' || mark == '~') && 3 ≤ length then
        if mark == '`' &&
            (Line.throughFeed (text.drop length) ending following).1.contains '`' then none
        else some ⟨mark, length⟩
      else none
  | [] => none

def Fence.closedBy (fence : Fence) (text : List Char) : Bool :=
  fence.length ≤ runLength fence.mark text &&
    (text.drop (runLength fence.mark text)).all (· == ' ')

structure ListMarker where
  mark : Char
  start : Nat
  indent : Nat
deriving DecidableEq, Repr

namespace ListMarker

def number? (mark : Char) (start : Nat) : Option Nat :=
  if mark == '.' || mark == ')' then some start else none

def read (text : List Char) : Option (Nat × Char × Nat) :=
  match text with
  | [] => none
  | c :: _ =>
      if c == '-' || c == '+' || c == '*' then some (1, c, 0)
      else
        let digits := (text.take 9).takeWhile Char.isDigit
        match digits, text.drop digits.length with
        | _ :: _, mark :: _ =>
            if mark == '.' || mark == ')' then
              some (digits.length + 1, mark, Text.ofDigits 10 digits)
            else none
        | _, _ => none

/-- Reads a list marker at a cursor that stands `outer` columns into its container. The text of the
    item starts up to four columns behind the marker; text further right is indented code. -/
def scan (outer : Nat) (c : Cursor) : Option (ListMarker × Cursor) := do
  let (width, mark, start) ← read c.rest
  if width = 1 ∧ isRule c.rest then none
  else
    let (space, c) := (c.advance width).spaces 1
    if space = 1 ∨ c.atEnd then
      let indent := outer + width + 1
      if blankRest c.rest then some (⟨mark, start, indent⟩, c)
      else
        let (more, c') := c.spaces 4
        if more < 4 then some (⟨mark, start, indent + more⟩, c') else some (⟨mark, start, indent⟩, c)
    else none

end ListMarker

def taskMarker? (c : Cursor) (ending : LineEnd) : Option (Bool × Cursor) :=
  let (_, c) := c.spaces 3
  match c.rest with
  | '[' :: x :: ']' :: rest =>
      let box := if isLineBlank x then some false else if x == 'x' || x == 'X' then some true else none
      match box with
      | some done =>
          let spaced : Bool :=
            match rest with
            | [] => ending != .absent
            | x :: _ => isLineBlank x
          if spaced then some (done, c.advance 3) else none
      | none => none
  | _ => none

def quoteMarker? (c : Cursor) : Option Cursor :=
  match c.rest with
  | '>' :: _ => some ((c.advance 1).spaces 1).2
  | _ => none

end MarkdownServer.Markdown
