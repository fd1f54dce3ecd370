import MarkdownServer.Markdown.Autolink
import MarkdownServer.Markdown.Content
import MarkdownServer.Markdown.Emphasis
import MarkdownServer.Markdown.Link
import MarkdownServer.Markdown.RawHtml
/- Inline elements. A scan goes over a text once, from left to right; brackets and runs of marks are
   noted on the way and matched up when a link, or the text, ends. -/
set_option autoImplicit false

namespace MarkdownServer.Markdown

open Text (isAsciiPunctuation)

structure Bracket where
  number : Nat
  image : Bool
  /-- A link never holds another link: the brackets around a link are out of use. -/
  active : Bool
  start : Nat
  behind : List Char

structure Scan where
  pieces : List Piece := []
  plain : List Char := []
  brackets : List Bracket := []
  numbers : Nat := 0
  spent : List Nat := []
  budget : Nat

namespace Scan

def flush (s : Scan) : Scan :=
  if s.plain.isEmpty then s
  else
    { s with
      pieces := .inline (.text (String.ofList s.plain.reverse)) :: s.pieces
      plain := [] }

def put (s : Scan) (piece : Piece) : Scan :=
  let s := s.flush
  { s with pieces := piece :: s.pieces }

def write (s : Scan) (characters : List Char) : Scan :=
  { s with plain := characters.reverse ++ s.plain }

def cutAt (number : Nat) (behind : List Piece) : List Piece → List Piece × List Piece
  | [] => (behind, [])
  | .bracket n image :: rest =>
      if n = number then (behind, rest) else cutAt number (.bracket n image :: behind) rest
  | piece :: rest => cutAt number (piece :: behind) rest

def openBracket (s : Scan) (image : Bool) (start : Nat) (behind : List Char) : Scan :=
  let s := s.put (.bracket s.numbers image)
  { s with
    brackets := ⟨s.numbers, image, true, start, behind⟩ :: s.brackets
    numbers := s.numbers + 1 }

def enclose (s : Scan) (bracket : Bracket) (target : Target) : Scan :=
  let s := s.flush
  let (behind, front) := cutAt bracket.number [] s.pieces
  let children := Emphasis.resolve behind
  let element := if bracket.image then .image target children else .link false target children
  let brackets :=
    if bracket.image then s.brackets
    else s.brackets.map fun b => if b.image then b else { b with active := false }
  { s with pieces := .inline element :: front, brackets }

def follow (s : Scan) (references : References) (label : String) : Option (Target × Scan) :=
  if s.budget = 0 then none
  else
    references[label]?.map fun target =>
      (target, { s with budget := s.budget - (target.url.utf8ByteSize + target.title.utf8ByteSize) })

def refer (s : Scan) (references : References) (bracket : Bracket) (label : Option String)
    (length : Nat) : Scan × Nat :=
  match label.bind (s.follow references) with
  | some (target, s) => (s.enclose bracket target, length)
  | none => (s.write [']'], 0)

/-- A closing bracket at `position`. What follows it may be a target in parentheses, a label, or
    empty brackets; otherwise the text between the brackets is the label. -/
def closeBracket (s : Scan) (references : References) (cell : Bool) (position : Nat)
    (rest : List Char) : Scan × Nat :=
  match s.brackets with
  | [] => (s.write [']'], 0)
  | bracket :: others =>
      let s := { s with brackets := others }
      if !bracket.active then (s.write [']'], 0)
      else
        match Link.inPlace? cell rest with
        | some (target, length) => (s.enclose bracket target, length)
        | none =>
            let ownLabel :=
              if s.spent.contains position then none
              else
                match Link.labelTo [] bracket.behind with
                | some raw =>
                    if bracket.start + raw.length = position then
                      Link.normalise cell [] 0 true raw
                    else none
                | none => none
            match rest with
            | '[' :: ']' :: _ => s.refer references bracket ownLabel 2
            | _ =>
                match Link.label? cell rest with
                | some (label, length) =>
                    { s with spent := (position + length) :: s.spent }.refer references bracket
                      (some label) length
                | none => s.refer references bracket ownLabel 0

def codeTo (length run : Nat) (text : List Char) : List Char → Option (List Char × Nat)
  | [] => if run = length then some ((text.drop length).reverse, text.length) else none
  | c :: rest =>
      if c = '`' then codeTo length (run + 1) (c :: text) rest
      else if run = length then some ((text.drop length).reverse, text.length)
      else codeTo length 0 (c :: text) rest

def joinCode (cell : Bool) : List Char → List Char
  | [] => []
  | '\r' :: '\n' :: rest => ' ' :: joinCode cell rest
  | '\r' :: rest => ' ' :: joinCode cell rest
  | '\n' :: rest => ' ' :: joinCode cell rest
  | '\\' :: '|' :: rest =>
      if cell then '|' :: joinCode cell rest else '\\' :: '|' :: joinCode cell rest
  | c :: rest => c :: joinCode cell rest

def stripCode (code : List Char) : List Char :=
  if code.head? == some ' ' && code.getLast? == some ' ' && !code.all (· == ' ') then
    (code.drop 1).dropLast
  else code

def angle? (content : Content) (position : Nat) (rest : List Char) : Option (Inline × Nat) :=
  match Autolink.uri? rest with
  | some uri =>
      let url := String.ofList uri
      some (.link false ⟨url, ""⟩ [.text url], uri.length + 1)
  | none =>
      match Autolink.email? rest with
      | some address =>
          let url := String.ofList address
          some (.link true ⟨url, ""⟩ [.text url], address.length + 1)
      | none =>
          match rest with
          | '!' :: _ | '?' :: _ =>
              (RawHtml.passageLength rest).map fun length =>
                (.html (String.ofList (content.source position ('<' :: rest.take length))), length)
          | _ =>
              (RawHtml.tagLength true rest).map fun length =>
                (.html (String.ofList ('<' :: rest.take length)), length)

def lineBreak (s : Scan) (hard : Bool) (rest : List Char) : Scan × Nat :=
  let text := s.plain.dropWhile isLineBlank
  let hard' := hard || 2 ≤ s.plain.length - text.length
  let plain := if hard then s.plain else text
  ({ s with plain }.put (.inline (if hard' then .hardBreak else .softBreak)),
    (rest.takeWhile fun c => c == ' ' || c == '\t').length)

def step (references : References) (content : Content) (s : Scan) (position : Nat)
    (previous : Option Char) (c : Char) (rest : List Char) : Scan × Nat :=
  match c with
  | '\n' => s.lineBreak false rest
  | '\r' =>
      match rest with
      | '\n' :: rest => let (s, more) := s.lineBreak false rest; (s, more + 1)
      | _ => s.lineBreak false rest
  | '\\' =>
      match rest with
      | '\n' :: rest => let (s, more) := s.lineBreak true rest; (s, more + 1)
      | '\r' :: '\n' :: rest => let (s, more) := s.lineBreak true rest; (s, more + 2)
      | '\r' :: rest => let (s, more) := s.lineBreak true rest; (s, more + 1)
      | '\\' :: '|' :: _ =>
          if content.cell then (s.write ['|'], 2) else (s.write ['\\'], 1)
      | x :: _ => if isAsciiPunctuation x then (s.write [x], 1) else (s.write [c], 0)
      | [] => (s.write [c], 0)
  | '`' =>
      let more := runLength '`' rest
      match codeTo (more + 1) 0 [] (rest.drop more) with
      | some (code, length) =>
          let code := stripCode (joinCode content.cell code)
          (s.put (.inline (.code (String.ofList code))), more + length)
      | none => (s.write (c :: rest.take more), more)
  | '<' =>
      if rest.head? = some '\\' then (s.write [c], 0)
      else
        match angle? content position rest with
        | some (element, length) => (s.put (.inline element), length)
        | none => (s.write [c], 0)
  | '&' =>
      match Entity.read rest with
      | some (characters, length) => (s.write characters, length)
      | none => (s.write [c], 0)
  | '!' =>
      match rest with
      | '[' :: rest => (s.openBracket true (position + 2) rest, 1)
      | _ => (s.write [c], 0)
  | '[' => (s.openBracket false (position + 1) rest, 0)
  | ']' => s.closeBracket references content.cell position rest
  | _ =>
      if c = '*' ∨ c = '_' ∨ c = '~' then
        let more := runLength c rest
        let before := content.leftOf position previous
        match Run.classify c (more + 1) before (rest.drop more).head? with
        | some run => (s.put (.run run), more)
        | none => (s.write (c :: rest.take more), more)
      else (s.write [c], 0)

def run (references : References) (content : Content) (s : Scan) (position : Nat)
    (previous : Option Char) : List Char → Scan
  | [] => s.flush
  | c :: rest =>
      let (s, more) := step references content s position previous c rest
      run references content s (position + 1 + more) ((c :: rest)[more]?) (rest.drop more)
termination_by text => text.length
decreasing_by simp +arith

end Scan

def Content.inlines (references : References) (content : Content) (budget : Nat) :
    List Inline × Nat :=
  let s := Scan.run references content { budget } 0 content.before content.text
  let elements := Emphasis.resolve s.pieces.reverse
  let elements :=
    if content.trailer.isEmpty then elements
    else elements ++ [.text (String.ofList content.trailer)]
  let elements :=
    match content.task with
    | some done => .task done :: elements
    | none => elements
  (elements, s.budget)

end MarkdownServer.Markdown
