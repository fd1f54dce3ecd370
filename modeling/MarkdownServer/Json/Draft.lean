import MarkdownServer.Json.Numeral
import MarkdownServer.Json.Text
/- Reading of JSON. A draft is what a text says up to the place where it stops being JSON, so that
   whoever decodes it in the order of the text meets the first fault first. -/
set_option autoImplicit false

namespace MarkdownServer.Json

inductive Draft where
  | null
  | boolean (b : Bool)
  | number (n : Number)
  | text (s : String)
  | array (items : List Draft) (stop : Option Fault)
  /-- The members, and what is wrong behind the last one. A member without a readable name has
      for its name what stands in that place, and the fault for its value. -/
  | object (members : List (Draft × Draft)) (stop : Option Fault)
  | broken (fault : Fault)
deriving Repr, Inhabited

def depthLimit : Nat := 128

def isSpace (c : Char) : Bool :=
  c == ' ' || c == '\t' || c == '\n' || c == '\r'

def skipSpace (cs : List Char) : List Char :=
  cs.dropWhile isSpace

def readWord : List Char → List Char → Except Fault (List Char)
  | [], cs => .ok cs
  | _ :: _, [] => .error .endInValue
  | w :: word, c :: rest => if w = c then readWord word rest else .error .expectedWord

abbrev Reading := Draft × Option (List Char)

def Reading.stopped (fault : Fault) : Reading := (.broken fault, none)

def readScalar (cs : List Char) : Reading :=
  let result : Except Fault (Draft × List Char) :=
    match cs with
    | [] => .error .endInValue
    | 'n' :: rest => do return (.null, ← readWord "ull".toList rest)
    | 't' :: rest => do return (.boolean true, ← readWord "rue".toList rest)
    | 'f' :: rest => do return (.boolean false, ← readWord "alse".toList rest)
    | '"' :: rest => (readText .plain [] rest).map fun r => (.text r.1, r.2)
    | c :: _ =>
      if c = '-' || c.isDigit then (readNumber cs).map fun r => (.number r.1, r.2)
      else .error .expectedValue
  match result with
  | .ok (draft, rest) => (draft, some rest)
  | .error fault => .stopped fault

def readColon (cs : List Char) : Except Fault (List Char) :=
  match skipSpace cs with
  | [] => .error .endInObject
  | ':' :: rest => .ok rest
  | _ => .error .expectedColon

/- The first argument bounds the number of steps; a text has at least one character for each.
   `depth` is the number of levels left, and `done` holds what was read, latest first. -/
mutual
def readValue : Nat → Nat → List Char → Reading
  | 0, _, _ => .stopped .endInValue
  | steps + 1, depth, cs =>
    match skipSpace cs with
    | '[' :: rest =>
      if depth ≤ 1 then (.array [] (some .tooDeep), none)
      else readItems steps (depth - 1) true [] rest
    | '{' :: rest =>
      if depth ≤ 1 then (.object [] (some .tooDeep), none)
      else readMembers steps (depth - 1) true [] rest
    | cs => readScalar cs

def readItems : Nat → Nat → Bool → List Draft → List Char → Reading
  | 0, _, _, done, _ => (.array done.reverse (some .endInArray), none)
  | steps + 1, depth, first, done, cs =>
    let stop (fault : Fault) : Reading := (.array done.reverse (some fault), none)
    let item (cs : List Char) : Reading :=
      match readValue steps depth cs with
      | (draft, some rest) => readItems steps depth false (draft :: done) rest
      | (draft, none) => (.array (draft :: done).reverse none, none)
    match skipSpace cs with
    | [] => stop .endInArray
    | ']' :: rest => (.array done.reverse none, some rest)
    | c :: rest =>
      if first then item (c :: rest)
      else if c = ',' then
        match skipSpace rest with
        | [] => stop .endInValue
        | ']' :: _ => stop .trailingComma
        | rest => item rest
      else stop .expectedCommaOrBracket

def readMembers : Nat → Nat → Bool → List (Draft × Draft) → List Char → Reading
  | 0, _, _, done, _ => (.object done.reverse (some .endInObject), none)
  | steps + 1, depth, first, done, cs =>
    let stop (fault : Fault) : Reading := (.object done.reverse (some fault), none)
    let close (name value : Draft) : Reading := (.object ((name, value) :: done).reverse none, none)
    let member (cs : List Char) : Reading :=
      match cs with
      | '"' :: rest =>
        match readText .plain [] rest with
        | .error fault => close (.broken fault) (.broken fault)
        | .ok (name, rest) =>
          match readColon rest with
          | .error fault => close (.text name) (.broken fault)
          | .ok rest =>
            match readValue steps depth rest with
            | (draft, some rest) =>
              readMembers steps depth false ((.text name, draft) :: done) rest
            | (draft, none) => close (.text name) draft
      | cs => close (readValue steps depth cs).1 (.broken .keyNotText)
    match skipSpace cs with
    | [] => stop .endInObject
    | '}' :: rest => (.object done.reverse none, some rest)
    | c :: rest =>
      if first then member (c :: rest)
      else if c = ',' then
        match skipSpace rest with
        | [] => stop .endInValue
        | '}' :: _ => stop .trailingComma
        | rest => member rest
      else stop .expectedCommaOrBrace
end

def Draft.read (text : String) : Draft × Option Fault :=
  let cs := text.toList
  match readValue (cs.length + 1) depthLimit cs with
  | (draft, some rest) =>
    (draft, if (skipSpace rest).isEmpty then none else some .trailingCharacters)
  | (draft, none) => (draft, none)

mutual
def Draft.value : Draft → Except Fault Value
  | .null => .ok .null
  | .boolean b => .ok (.boolean b)
  | .number n => .ok (.number n)
  | .text s => .ok (.text s)
  | .array items stop => do
    let values ← itemValues [] items
    match stop with
    | some fault => .error fault
    | none => .ok (.array values)
  | .object members stop => do
    let values ← memberValues [] members
    match stop with
    | some fault => .error fault
    | none => .ok (.object values)
  | .broken fault => .error fault

def itemValues (done : List Value) : List Draft → Except Fault (List Value)
  | [] => .ok done.reverse
  | draft :: rest =>
    match draft.value with
    | .ok v => itemValues (v :: done) rest
    | .error fault => .error fault

def memberValues (done : List (String × Value)) :
    List (Draft × Draft) → Except Fault (List (String × Value))
  | [] => .ok done
  | (name, draft) :: rest =>
    match draft.value, name with
    | .ok v, .text name => memberValues (insertMember name v done) rest
    | .ok _, _ => .error .keyNotText
    | .error fault, _ => .error fault
end

def Value.read (text : String) : Except Fault Value := do
  let (draft, trailing) := Draft.read text
  let v ← draft.value
  match trailing with
  | some fault => .error fault
  | none => .ok v

end MarkdownServer.Json
