import MarkdownServer.Json.Value
import MarkdownServer.Numeric.Shortest
/- The two written forms of a JSON value: compact, and spread over lines. -/
set_option autoImplicit false

namespace MarkdownServer.Json

open Numeric (Double)

def escapeChar (c : Char) : List Char :=
  if c = '"' then ['\\', '"']
  else if c = '\\' then ['\\', '\\']
  else if c = '\x08' then ['\\', 'b']
  else if c = '\t' then ['\\', 't']
  else if c = '\n' then ['\\', 'n']
  else if c = '\x0c' then ['\\', 'f']
  else if c = '\r' then ['\\', 'r']
  else if c.toNat < 32 then
    ['\\', 'u', '0', '0', Nat.digitChar (c.toNat / 16), Nat.digitChar (c.toNat % 16)]
  else [c]

def writeText (s : String) : List Char :=
  '"' :: s.toList.flatMap escapeChar ++ ['"']

/-- The decimal digits of a double: positional from `1e-5` to below `1e16`, and always with a
    point or an exponent. -/
def writeMagnitude (x : Double) : List Char :=
  if x.isZero then ['0', '.', '0']
  else
    let d := x.shortest
    let digits := (toString d.coefficient).toList
    let last : Int := d.exponent
    let first : Int := last + digits.length - 1
    if first < -5 || 15 < first then
      let fraction :=
        match digits.drop 1 with
        | [] => []
        | rest => '.' :: rest
      digits.take 1 ++ fraction ++ ['e', if first < 0 then '-' else '+'] ++
        (toString first.natAbs).toList
    else if 0 ≤ last then digits ++ List.replicate last.toNat '0' ++ ['.', '0']
    else if 0 ≤ first then
      digits.take (first.toNat + 1) ++ '.' :: digits.drop (first.toNat + 1)
    else ['0', '.'] ++ List.replicate (first.natAbs - 1) '0' ++ digits

def writeDouble (x : Double) : List Char :=
  if x.negative then '-' :: writeMagnitude x else writeMagnitude x

def Number.write : Number → List Char
  | .integer i => (toString i).toList
  | .double x => writeDouble x

mutual
def Value.writeCompact : Value → List Char
  | .null => "null".toList
  | .boolean true => "true".toList
  | .boolean false => "false".toList
  | .number n => n.write
  | .text s => writeText s
  | .array [] => ['[', ']']
  | .array (v :: rest) => '[' :: v.writeCompact ++ writeCompactItems rest ++ [']']
  | .object [] => ['{', '}']
  | .object ((name, v) :: rest) =>
      '{' :: writeText name ++ ':' :: v.writeCompact ++ writeCompactMembers rest ++ ['}']

def writeCompactItems : List Value → List Char
  | [] => []
  | v :: rest => ',' :: v.writeCompact ++ writeCompactItems rest

def writeCompactMembers : List (String × Value) → List Char
  | [] => []
  | (name, v) :: rest =>
      ',' :: writeText name ++ ':' :: v.writeCompact ++ writeCompactMembers rest
end

def newLine (level : Nat) : List Char :=
  '\n' :: List.replicate (2 * level) ' '

mutual
def Value.writePretty (level : Nat) : Value → List Char
  | .null => "null".toList
  | .boolean true => "true".toList
  | .boolean false => "false".toList
  | .number n => n.write
  | .text s => writeText s
  | .array [] => ['[', ']']
  | .array (v :: rest) =>
      '[' :: newLine (level + 1) ++ v.writePretty (level + 1) ++
        writePrettyItems (level + 1) rest ++ newLine level ++ [']']
  | .object [] => ['{', '}']
  | .object ((name, v) :: rest) =>
      '{' :: newLine (level + 1) ++ writeText name ++ ':' :: ' ' :: v.writePretty (level + 1) ++
        writePrettyMembers (level + 1) rest ++ newLine level ++ ['}']

def writePrettyItems (level : Nat) : List Value → List Char
  | [] => []
  | v :: rest => ',' :: newLine level ++ v.writePretty level ++ writePrettyItems level rest

def writePrettyMembers (level : Nat) : List (String × Value) → List Char
  | [] => []
  | (name, v) :: rest =>
      ',' :: newLine level ++ writeText name ++ ':' :: ' ' :: v.writePretty level ++
        writePrettyMembers level rest
end

def Value.compact (v : Value) : String :=
  String.ofList v.writeCompact

def Value.pretty (v : Value) : String :=
  String.ofList (v.writePretty 0)

end MarkdownServer.Json
