import MarkdownServer.Text.Blank
import MarkdownServer.Text.CaseFold
import MarkdownServer.Markdown.Document
import MarkdownServer.Markdown.Entity
/- The parts of links: destinations, titles and labels. Scanners tell how many characters a part
   takes. -/
set_option autoImplicit false

namespace MarkdownServer.Markdown

open Text (isAsciiPunctuation)

namespace Link

def parenthesisLimit : Nat := 32

def angled (text : List Char) : List Char → Option (List Char)
  | [] => none
  | '\n' :: _ => none
  | '\r' :: _ => none
  | '<' :: _ => none
  | '>' :: _ => some text.reverse
  | '\\' :: c :: rest =>
      if isAsciiPunctuation c then angled (c :: '\\' :: text) rest else angled ('\\' :: text) (c :: rest)
  | c :: rest => angled (c :: text) rest
termination_by text => text.length

def bare (text : List Char) (depth : Nat) : List Char → Option (List Char)
  | [] => if depth = 0 then some text.reverse else none
  | '\\' :: c :: rest =>
      if isAsciiPunctuation c then bare (c :: '\\' :: text) depth rest
      else bare ('\\' :: text) depth (c :: rest)
  | c :: rest =>
      if c ≤ ' ' then if depth = 0 then some text.reverse else none
      else if c = '(' then
        if parenthesisLimit < depth then none else bare (c :: text) (depth + 1) rest
      else if c = ')' then
        if depth = 0 then some text.reverse else bare (c :: text) (depth - 1) rest
      else bare (c :: text) depth rest
termination_by text => text.length

def destination? (text : List Char) : Option (List Char × Nat) :=
  match text with
  | '<' :: rest => (angled [] rest).map fun d => (d, d.length + 2)
  | _ => (bare [] 0 text).map fun d => (d, d.length)

def titleEnd? (c : Char) : Option Char :=
  if c = '"' ∨ c = '\'' then some c else if c = '(' then some ')' else none

def titleTo (closer : Char) (cell : Bool) (value : List Char) (length : Nat) :
    List Char → Option (List Char × Nat)
  | [] => none
  | '\\' :: '\\' :: '|' :: rest =>
      if cell then titleTo closer cell ('|' :: value) (length + 3) rest
      else titleTo closer cell ('\\' :: value) (length + 2) ('|' :: rest)
  | '\\' :: c :: rest =>
      if isAsciiPunctuation c then titleTo closer cell (c :: value) (length + 2) rest
      else titleTo closer cell ('\\' :: value) (length + 1) (c :: rest)
  | c :: rest =>
      if c = closer then some (value.reverse, length + 1)
      else if c = '(' ∧ closer = ')' then none
      else if c = '\n' ∨ c = '\r' then
        let feed := if c = '\r' ∧ rest.head? = some '\n' then 1 else 0
        let skipped := ((rest.drop feed).takeWhile fun x => x == ' ' || x == '\t').length
        titleTo closer cell ('\n' :: value) (length + 1 + feed + skipped) (rest.drop (feed + skipped))
      else if c = '&' then
        match Entity.read rest with
        | some (characters, taken) =>
            titleTo closer cell (characters.reverse ++ value) (length + 1 + taken) (rest.drop taken)
        | none => titleTo closer cell (c :: value) (length + 1) rest
      else titleTo closer cell (c :: value) (length + 1) rest
termination_by text => text.length
decreasing_by all_goals simp +arith

def title? (cell : Bool) (text : List Char) : Option (List Char × Nat) :=
  match text with
  | c :: rest => do
      let closer ← titleEnd? c
      titleTo closer cell [] 1 rest
  | [] => none

def separatorLength (text : List Char) : Nat :=
  let before := (text.takeWhile isLineBlank).length
  let ending :=
    match text.drop before with
    | '\r' :: '\n' :: _ => 2
    | '\n' :: _ => 1
    | '\r' :: _ => 1
    | _ => 0
  before + ending + ((text.drop (before + ending)).takeWhile isLineBlank).length

def inPlace? (cell : Bool) (text : List Char) : Option (Target × Nat) := do
  match text with
  | '(' :: rest =>
      let gap := separatorLength rest
      let (url, length) ← destination? (rest.drop gap)
      let length := gap + length
      let length := length + separatorLength (rest.drop length)
      let (title, length) :=
        match title? cell (rest.drop length) with
        | some (title, taken) =>
            let length := length + taken
            (title, length + separatorLength (rest.drop length))
        | none => ([], length)
      if (rest.drop length).head? = some ')' then
        some (⟨String.ofList (unescape cell url), String.ofList title⟩, length + 2)
      else none
  | _ => none

def labelTo (text : List Char) : List Char → Option (List Char)
  | [] => none
  | '[' :: _ => none
  | ']' :: _ => some text.reverse
  | '\\' :: c :: rest => labelTo (c :: '\\' :: text) rest
  | c :: rest => labelTo (c :: text) rest

/-- What a label counts against its limit. ASCII characters other than blanks and escapes are
    free, other characters count by their bytes. -/
def labelWeight (c : Char) : Nat :=
  if c.toNat < 0x80 then 0 else c.utf8Size

def labelLimit : Nat := 1000

/-- Brings a label into the form in which labels are compared: runs of white space become one
    space, and letter case is folded. Refused are labels that are too long, have two line ends in
    one run of white space, or hold nothing but white space. In a table cell a bar loses the backslash
    in front of it. `value` is the label so far, newest first. -/
def normalise (cell : Bool) (value : List Char) (weight : Nat) (empty : Bool) :
    List Char → Option String
  | [] =>
      if empty ∨ labelLimit ≤ weight then none
      else some (String.ofList (Text.foldCase (Text.trimBlanks value.reverse)))
  | '\\' :: '\\' :: '|' :: rest =>
      if labelLimit ≤ weight then none
      else if cell then normalise cell ('|' :: '\\' :: value) (weight + 3) false rest
      else normalise cell ('\\' :: '\\' :: value) (weight + 2) false ('|' :: rest)
  | '\\' :: c :: rest =>
      if labelLimit ≤ weight then none
      else if cell && c == '|' then normalise cell ('|' :: value) (weight + 2) false rest
      else normalise cell (c :: '\\' :: value) (weight + 2) false rest
  | c :: rest =>
      if labelLimit ≤ weight then none
      else if isAsciiBlank c then
        let run := rest.takeWhile isAsciiBlank
        let feeds := ((c :: run).filter (· == '\n')).length
        let returns := ((c :: run).filter (· == '\r')).length
        if 1 < feeds ∨ 1 < returns then none
        else normalise cell (' ' :: value) (weight + run.length + 1) empty (rest.drop run.length)
      else normalise cell (c :: value) (weight + labelWeight c) false rest
termination_by text => text.length
decreasing_by all_goals simp +arith

def label? (cell : Bool) (text : List Char) : Option (String × Nat) := do
  match text with
  | '[' :: rest =>
      let raw ← labelTo [] rest
      let label ← normalise cell [] 0 true raw
      some (label, raw.length + 2)
  | _ => none

end Link

abbrev References := Std.HashMap String Target

end MarkdownServer.Markdown
