import MarkdownServer.Markdown.Document
/- Documents as HTML. Every function appends to the text written so far. -/
set_option autoImplicit false

namespace MarkdownServer.Markdown.Html

def escapeChar (c : Char) : List Char :=
  if c = '<' then "&lt;".toList
  else if c = '>' then "&gt;".toList
  else if c = '&' then "&amp;".toList
  else [c]

def escapeValueChar (c : Char) : List Char :=
  if c = '"' then "&quot;".toList
  else if c = '\'' then "&#39;".toList
  else escapeChar c

def escape (s : String) : String :=
  String.ofList (s.toList.flatMap escapeChar)

def escapeValue (s : String) : String :=
  String.ofList (s.toList.flatMap escapeValueChar)

def isAddressChar (c : Char) : Bool :=
  c.isAlphanum || "!#$%()*+,-./:;=?@_~".toList.contains c

def hexDigits : List Char := "0123456789ABCDEF".toList

def percent (byte : UInt8) : List Char :=
  ['%', hexDigits.getD (byte.toNat / 16) '0', hexDigits.getD (byte.toNat % 16) '0']

def addressChar (c : Char) : List Char :=
  if isAddressChar c then [c]
  else if c = '&' then "&amp;".toList
  else if c = '\'' then "&#x27;".toList
  else (String.singleton c).toUTF8.toList.flatMap percent

def escapeAddress (s : String) : String :=
  String.ofList (s.toList.flatMap addressChar)

def freshLine (out : String) : String :=
  if out.isEmpty || out.endsWith "\n" then out else out ++ "\n"

def titleAttribute (title : String) : String :=
  if title.isEmpty then "" else "\" title=\"" ++ escapeValue title

mutual
def plain (out : String) : Inline → String
  | .text content => out ++ escapeValue content
  | .code content => out ++ escapeValue content
  | .html content => out ++ escapeValue content
  | .softBreak => out ++ " "
  | .hardBreak => out ++ " "
  | .task done => out ++ if done then "[x]" else "[ ]"
  | .styled _ children => plains out children
  | .link _ _ children => plains out children
  | .image _ children => plains out children

def plains (out : String) : List Inline → String
  | [] => out
  | element :: elements => plains (plain out element) elements
end

def styleName : Style → String
  | .emphasis => "em"
  | .strong => "strong"
  | .struck => "del"

mutual
def inline (out : String) : Inline → String
  | .text content => out ++ escape content
  | .code content => out ++ "<code>" ++ escape content ++ "</code>"
  | .html content => out ++ content
  | .softBreak => out ++ "\n"
  | .hardBreak => out ++ "<br />\n"
  | .task done =>
      out ++ if done then "<input disabled=\"\" type=\"checkbox\" checked=\"\"/>\n"
        else "<input disabled=\"\" type=\"checkbox\"/>\n"
  | .styled style children =>
      inlines (out ++ "<" ++ styleName style ++ ">") children ++ "</" ++ styleName style ++ ">"
  | .link email target children =>
      inlines (out ++ "<a href=\"" ++ (if email then "mailto:" else "") ++
        escapeAddress target.url ++ titleAttribute target.title ++ "\">") children ++ "</a>"
  | .image target children =>
      plains (out ++ "<img src=\"" ++ escapeAddress target.url ++ "\" alt=\"") children ++
        titleAttribute target.title ++ "\" />"

def inlines (out : String) : List Inline → String
  | [] => out
  | element :: elements => inlines (inline out element) elements
end

def codeTag (info : Option String) : String :=
  let language := ((info.getD "").toList.takeWhile (· != ' '))
  if language.isEmpty then "<pre><code>"
  else "<pre><code class=\"language-" ++ escapeValue (String.ofList language) ++ "\">"

def alignAttribute : Alignment → String
  | .unset => ">"
  | .left => " style=\"text-align: left\">"
  | .center => " style=\"text-align: center\">"
  | .right => " style=\"text-align: right\">"

def cells (name : String) (out : String) : List Alignment → List (List Inline) → String
  | _, [] => out
  | columns, cell :: rest =>
      let out := out ++ "<" ++ name ++ alignAttribute (columns.headD .unset)
      cells name (inlines out cell ++ "</" ++ name ++ ">") (columns.drop 1) rest

def rows (columns : List Alignment) (out : String) : List (List (List Inline)) → String
  | [] => out
  | row :: rest => rows columns (cells "td" (out ++ "<tr>") columns row ++ "</tr>\n") rest

def listTag : Option Nat → String
  | none => "<ul>\n"
  | some 1 => "<ol>\n"
  | some start => "<ol start=\"" ++ toString start ++ "\">\n"

mutual
def block (out : String) : Block (List Inline) → String
  | .paragraph content => inlines (freshLine out ++ "<p>") content ++ "</p>\n"
  | .tight content => inlines out content
  | .heading level content =>
      inlines (freshLine out ++ "<h" ++ toString level ++ ">") content ++
        "</h" ++ toString level ++ ">\n"
  | .quote children => blocks (freshLine out ++ "<blockquote>\n") children ++ "</blockquote>\n"
  | .list start children =>
      items (freshLine out ++ listTag start) children ++
        (if start.isSome then "</ol>\n" else "</ul>\n")
  | .code info content => freshLine out ++ codeTag info ++ escape content ++ "</code></pre>\n"
  | .html lines =>
      lines.foldl (fun out line =>
        out ++ String.ofList (List.replicate line.padding ' ') ++ line.content) out
  | .rule => freshLine out ++ "<hr />\n"
  | .table columns head body =>
      rows columns (cells "th" (out ++ "<table><thead><tr>") columns head ++
        "</tr></thead><tbody>\n") body ++ "</tbody></table>\n"

def blocks (out : String) : List (Block (List Inline)) → String
  | [] => out
  | b :: rest => blocks (block out b) rest

def items (out : String) : List (List (Block (List Inline))) → String
  | [] => out
  | item :: rest => items (blocks (freshLine out ++ "<li>") item ++ "</li>\n") rest
end

def render (document : Document) : String :=
  blocks "" document

end MarkdownServer.Markdown.Html
