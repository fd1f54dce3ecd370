import MarkdownServer.Markdown.Interrupt
/- Definitions of link references. A definition may run over several lines as long as none of them
   would end a paragraph. Scanners return the rest of the line they stop in and the lines below. -/
set_option autoImplicit false

namespace MarkdownServer.Markdown.Definition

def label (frames : List Frame) (raw : List Char) :
    List Char → List Line → Option (List Char × List Char × List Line)
  | ']' :: rest, lines => some (raw.reverse, rest, lines)
  | '[' :: _, _ => none
  | '\\' :: c :: rest, lines => label frames (c :: '\\' :: raw) rest lines
  | c :: rest, lines => label frames (c :: raw) rest lines
  | [], line :: lines =>
      let (count, c) := Frame.enterAll frames (.start line)
      if Here.endsText frames ⟨c.rest, line.ending, lines⟩ (count == frames.length) then none
      else label frames ('\n' :: raw) c.rest lines
  | [], [] => none
termination_by text lines => (lines.length, text.length)

def gap (frames : List Frame) (allowed : Nat) (text : List Char) (lines : List Line) :
    Option (Nat × List Char × List Line) :=
  match text.dropWhile isLineBlank with
  | c :: rest => some (0, c :: rest, lines)
  | [] =>
      match allowed, lines with
      | allowed + 1, line :: lines =>
          let (count, c) := Frame.enterAll frames (.start line)
          let (taken, c) := c.spaces 4
          if taken < 4 ∧
              Here.endsText frames ⟨c.rest, line.ending, lines⟩ (count == frames.length) then none
          else (gap frames allowed c.rest lines).map fun (ends, place) => (ends + 1, place)
      | _, _ => none

def titleTo (frames : List Frame) (closer : Char) (raw : List Char) :
    List Char → List Line → Option (List Char × List Char × List Line)
  | '\\' :: c :: rest, lines => titleTo frames closer (c :: '\\' :: raw) rest lines
  | c :: rest, lines =>
      if c = closer then some (raw.reverse, rest, lines)
      else if c = '(' ∧ closer = ')' then none
      else titleTo frames closer (c :: raw) rest lines
  | [], line :: lines =>
      let (count, c) := Frame.enterAll frames (.start line)
      let (taken, c) := c.spaces 4
      if taken < 4 ∧
          Here.endsText frames ⟨c.rest, line.ending, lines⟩ (count == frames.length) then none
      else if blankRest c.rest then none
      else titleTo frames closer ('\n' :: raw) c.skipSpaces.rest lines
  | [], [] => none
termination_by text lines => (lines.length, text.length)

def title? (frames : List Frame) (text : List Char) (lines : List Line) :
    Option (List Char × List Char × List Line) :=
  match text with
  | c :: rest => do
      let closer ← Link.titleEnd? c
      titleTo frames closer [] rest lines
  | [] => none

/-- Reads a definition: its label, its target, and the lines below it. A title that cannot be read
    spoils the definition unless it starts on a line of its own. -/
def read (frames : List Frame) (text : List Char) (lines : List Line) :
    Option (String × Target × List Line) := do
  match text with
  | '[' :: text =>
      let (raw, text, lines) ← label frames [] text lines
      let name ← Link.normalise false [] 0 true raw
      match text with
      | ':' :: text =>
          let (_, text, lines) ← gap frames 1 text lines
          let (url, length) ← Link.destination? text
          if length = 0 then none
          else
            let url := String.ofList (unescape false url)
            let text := text.drop length
            let untitled := some (name, ⟨url, ""⟩, lines)
            match gap frames 1 text lines with
            | none => untitled
            | some (ends, text', lines') =>
                if ends = 0 ∧ text'.length = text.length then none
                else
                  let otherwise := if ends = 0 then none else untitled
                  match title? frames text' lines' with
                  | some (title, behind, below) =>
                      if blankRest behind then
                        some (name, ⟨url, String.ofList (unescape false title)⟩, below)
                      else otherwise
                  | none => otherwise
      | _ => none
  | _ => none

end MarkdownServer.Markdown.Definition
