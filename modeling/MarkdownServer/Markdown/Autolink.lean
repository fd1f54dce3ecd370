import MarkdownServer.Markdown.Source
/- Addresses in angle brackets. The scanners read the text behind the opening bracket and return the
   address, which its closing bracket follows. -/
set_option autoImplicit false

namespace MarkdownServer.Markdown.Autolink

def uri? (text : List Char) : Option (List Char) :=
  match text with
  | [] => none
  | c :: _ =>
      let scheme := text.takeWhile fun x => x.isAlphanum || x == '.' || x == '-' || x == '+'
      let behind := text.drop scheme.length
      if c.isAlpha ∧ 2 ≤ scheme.length ∧ scheme.length ≤ 32 ∧ behind.head? = some ':' then
        let body := behind.takeWhile fun x => ' ' < x && x != '<' && x != '>'
        if (behind.drop body.length).head? = some '>' then some (scheme ++ body) else none
      else none

def isLocalChar (c : Char) : Bool :=
  c.isAlphanum || ".!#$%&'*+/=?^_`\x7b|\x7d~-".toList.contains c

/-- The length of dot-separated labels. A label has up to 63 letters, digits and hyphens, and no
    hyphen at its ends. -/
def domainLength (fuel : Nat) (text : List Char) : Option Nat :=
  match fuel with
  | 0 => none
  | fuel + 1 =>
      let label := text.takeWhile fun x => x.isAlphanum || x == '-'
      if label.isEmpty ∨ 63 < label.length ∨ label.head? = some '-' ∨ label.getLast? = some '-' then
        none
      else
        match text.drop label.length with
        | '.' :: rest => (domainLength fuel rest).map (label.length + 1 + ·)
        | _ => some label.length

def email? (text : List Char) : Option (List Char) :=
  let name := text.takeWhile isLocalChar
  match name, text.drop name.length with
  | _ :: _, '@' :: rest => do
      let length ← domainLength (rest.length + 1) rest
      if (rest.drop length).head? = some '>' then some (name ++ '@' :: rest.take length) else none
  | _, _ => none

end MarkdownServer.Markdown.Autolink
