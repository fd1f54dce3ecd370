import MarkdownServer.Markdown.Source
/- Raw HTML: single tags, comments, instructions and declarations. Each scanner reads the text
   behind an opening `<` and tells how many characters belong to the construct. -/
set_option autoImplicit false

namespace MarkdownServer.Markdown.RawHtml

def isNameChar (c : Char) : Bool :=
  c.isAlphanum || c == '_' || c == '.' || c == ':' || c == '-'

def isBareChar (c : Char) : Bool :=
  !(isAsciiBlank c || c == '=' || c == '>' || c == '<' || c == '\'' || c == '"' || c == '`')

def gapLength (multiline : Bool) (text : List Char) : Nat :=
  (text.takeWhile fun c => if multiline then isAsciiBlank c else isLineBlank c).length

def valueLength (multiline : Bool) (text : List Char) : Option Nat :=
  match text with
  | [] => none
  | c :: rest =>
      if c == '"' || c == '\'' then
        let body := rest.takeWhile fun x => x != c && (multiline || !(x == '\n' || x == '\r'))
        if (rest.drop body.length).head? == some c then some (body.length + 2) else none
      else if c == ' ' || c == '=' || c == '>' || c == '<' || c == '`' || c == '\n' || c == '\r' then
        none
      else some (text.takeWhile isBareChar).length

def attributeLength (multiline : Bool) (text : List Char) : Option Nat :=
  match text with
  | [] => none
  | c :: rest =>
      if c.isAlpha || c == '_' || c == ':' then
        let name := 1 + (rest.takeWhile isNameChar).length
        let afterName := text.drop name
        let gap := gapLength multiline afterName
        if (afterName.drop gap).head? == some '=' then
          let afterSign := afterName.drop (gap + 1)
          let gap' := gapLength multiline afterSign
          (valueLength multiline (afterSign.drop gap')).map fun value =>
            name + gap + 1 + gap' + value
        else some name
      else none

def attributesLength (multiline : Bool) (fuel : Nat) (text : List Char) : Option Nat :=
  match fuel with
  | 0 => none
  | fuel + 1 =>
      let gap := gapLength multiline text
      match text.drop gap with
      | '>' :: _ => some (gap + 1)
      | '/' :: '>' :: _ => some (gap + 2)
      | '/' :: _ => none
      | behind =>
          if gap = 0 then none
          else do
            let length ← attributeLength multiline behind
            let more ← attributesLength multiline fuel (behind.drop length)
            some (gap + length + more)

def tagNameLength (text : List Char) : Nat :=
  match text with
  | c :: rest =>
      if c.isAlpha then 1 + (rest.takeWhile fun x => x.isAlphanum || x == '-').length else 0
  | [] => 0

def tagLength (multiline : Bool) (text : List Char) : Option Nat :=
  match text with
  | '/' :: rest =>
      let name := tagNameLength rest
      let gap := gapLength false (rest.drop name)
      if name ≠ 0 ∧ (rest.drop (name + gap)).head? = some '>' then some (name + gap + 2) else none
  | _ =>
      let name := tagNameLength text
      if name = 0 then none
      else (attributesLength multiline (text.length + 1) (text.drop name)).map (name + ·)

def lengthThrough (mark : List Char) : List Char → Option Nat
  | [] => none
  | c :: rest =>
      if mark.isPrefixOf (c :: rest) then some mark.length
      else (lengthThrough mark rest).map (· + 1)

def passageLength (text : List Char) : Option Nat :=
  match text with
  | '!' :: '-' :: '-' :: rest =>
      match rest with
      | '>' :: _ => some 4
      | '-' :: '>' :: _ => some 5
      | _ => (lengthThrough ['-', '-', '>'] rest).map (· + 3)
  | '!' :: '[' :: 'C' :: 'D' :: 'A' :: 'T' :: 'A' :: '[' :: rest =>
      let body := (rest.takeWhile (· != ']')).length
      let brackets := runLength ']' (rest.drop body)
      if brackets ≠ 0 ∧ (rest.drop (body + brackets)).head? = some '>' then
        some (body + brackets + 9)
      else none
  | '!' :: c :: rest =>
      if c.isAlpha then (lengthThrough ['>'] rest).map (· + 2) else none
  | '?' :: rest => (lengthThrough ['?', '>'] rest).map (· + 1)
  | _ => none

def blockNames : List String :=
  ["address", "article", "aside", "base", "basefont", "blockquote", "body", "caption", "center",
    "col", "colgroup", "dd", "details", "dialog", "dir", "div", "dl", "dt", "fieldset",
    "figcaption", "figure", "footer", "form", "frame", "frameset", "h1", "h2", "h3", "h4", "h5",
    "h6", "head", "header", "hr", "html", "iframe", "legend", "li", "link", "main", "menu",
    "menuitem", "nav", "noframes", "ol", "optgroup", "option", "p", "param", "search", "section",
    "summary", "table", "tbody", "td", "tfoot", "th", "thead", "title", "tr", "track", "ul"]

def startsBlockElement (text : List Char) : Bool :=
  let text := if text.head? == some '/' then text.drop 1 else text
  let name := text.takeWhile Char.isAlphanum
  blockNames.contains (String.ofList (name.map Char.toLower)) &&
    match text.drop name.length with
    | [] => true
    | '/' :: rest => rest.head? == some '>'
    | c :: _ => c == ' ' || c == '\t' || c == '\n' || c == '\r' || c == '>'

def verbatimNames : List String := ["pre", "style", "script", "textarea"]

def endMark (text : List Char) : Option (List Char) :=
  let verbatim := verbatimNames.find? fun name =>
    String.ofList ((text.take name.length).map Char.toLower) == name &&
      match text.drop name.length with
      | [] => true
      | c :: _ => isAsciiBlank c || c == '>'
  match verbatim with
  | some name => some ('<' :: '/' :: name.toList ++ ['>'])
  | none =>
      match text with
      | '!' :: '-' :: '-' :: _ => some ['-', '-', '>']
      | '?' :: _ => some ['?', '>']
      | '!' :: '[' :: 'C' :: 'D' :: 'A' :: 'T' :: 'A' :: '[' :: _ => some [']', ']', '>']
      | '!' :: c :: _ => if c.isAlpha then some ['>'] else none
      | _ => none

def isLoneTag (text : List Char) : Bool :=
  match tagLength false text with
  | some length => blankRest (text.drop length)
  | none => false

end MarkdownServer.Markdown.RawHtml
