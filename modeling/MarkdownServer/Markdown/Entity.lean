import Std.Data.HashMap
import MarkdownServer.Text.CharSet
import MarkdownServer.Text.Punctuation
import MarkdownServer.Markdown.Source
import MarkdownServer.Markdown.Entity.Names
/- Character references and backslash escapes. -/
set_option autoImplicit false

namespace MarkdownServer.Markdown

open Text (isAsciiPunctuation isDigit ofDigits)

namespace Entity

def ofCode (code : Nat) : Char :=
  if code ≠ 0 ∧ code.isValidChar then Char.ofNat code else '\uFFFD'

def names : Std.HashMap String (List Char) := .ofList <|
  (Text.words namesTable).filterMap fun entry =>
    match entry.splitOn "=" with
    | [name, codes] =>
        some (name, (codes.splitOn "+").map fun code => ofCode (ofDigits 16 code.toList))
    | _ => none

/-- Reads the part of a reference behind its ampersand: the characters it stands for, and how many
    characters it takes. Decimal numbers have up to seven digits, hexadecimal ones up to six. -/
def read (text : List Char) : Option (List Char × Nat) :=
  match text with
  | '#' :: rest =>
      let (digits, value, mark) :=
        match rest with
        | x :: hex =>
            if x == 'x' || x == 'X' then
              let digits := (hex.take 6).takeWhile (isDigit 16)
              (digits, ofDigits 16 digits, 2)
            else
              let digits := (rest.take 7).takeWhile (isDigit 10)
              (digits, ofDigits 10 digits, 1)
        | [] => ([], 0, 1)
      if digits.isEmpty then none
      else if (text.drop (mark + digits.length)).head? == some ';' then
        some ([ofCode value], mark + digits.length + 1)
      else none
  | _ =>
      let name := text.takeWhile Char.isAlphanum
      if (text.drop name.length).head? == some ';' then
        (names[String.ofList name]?).map fun value => (value, name.length + 1)
      else none

end Entity

def unescape (cell : Bool) : List Char → List Char
  | [] => []
  | '\\' :: '\\' :: '|' :: rest =>
      if cell then '|' :: unescape cell rest else '\\' :: unescape cell ('|' :: rest)
  | '\\' :: c :: rest =>
      if isAsciiPunctuation c then c :: unescape cell rest else '\\' :: unescape cell (c :: rest)
  | '&' :: rest =>
      match Entity.read rest with
      | some (value, length) => value ++ unescape cell (rest.drop length)
      | none => '&' :: unescape cell rest
  | '\r' :: rest => unescape cell rest
  | c :: rest => c :: unescape cell rest
termination_by text => text.length
decreasing_by all_goals simp +arith

end MarkdownServer.Markdown
