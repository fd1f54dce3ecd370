import MarkdownServer.Json.Fault
import MarkdownServer.Text.Digits
/- Reading of a JSON string, one character at a time. -/
set_option autoImplicit false

namespace MarkdownServer.Json

inductive TextState where
  | plain
  | escaped
  | digits (high : Option Nat) (read : List Char)
  | paired (high : Nat)
  | pairedEscaped (high : Nat)
deriving Repr

def escape? (c : Char) : Option Char :=
  if c = '"' then some '"'
  else if c = '\\' then some '\\'
  else if c = '/' then some '/'
  else if c = 'b' then some '\x08'
  else if c = 'f' then some '\x0c'
  else if c = 'n' then some '\n'
  else if c = 'r' then some '\r'
  else if c = 't' then some '\t'
  else none

def hexNumber? (digits : List Char) : Option Nat :=
  if digits.all (Text.isDigit 16) then some (Text.ofDigits 16 digits) else none

/-- Four bytes make a hexadecimal escape, whatever they are. -/
def escapeIsFull (read : List Char) : Bool :=
  4 ≤ read.foldl (fun n c => n + c.utf8Size) 0

def closeEscape (high : Option Nat) (read : List Char) : Except Fault (Char ⊕ Nat) :=
  match high, hexNumber? read.reverse with
  | _, none => .error .invalidEscape
  | none, some n =>
    if 0xDC00 ≤ n && n ≤ 0xDFFF then .error .loneSurrogate
    else if 0xD800 ≤ n && n ≤ 0xDBFF then .ok (.inr n)
    else .ok (.inl (.ofNat n))
  | some h, some n =>
    if 0xDC00 ≤ n && n ≤ 0xDFFF then
      .ok (.inl (.ofNat (0x10000 + (h - 0xD800) * 0x400 + (n - 0xDC00))))
    else .error .loneSurrogate

def readText (state : TextState) (done : List Char) : List Char → Except Fault (String × List Char)
  | [] => .error .endInText
  | c :: rest =>
    match state with
    | .plain =>
      if c = '"' then .ok (String.ofList done.reverse, rest)
      else if c = '\\' then readText .escaped done rest
      else if c.toNat < 32 then .error .controlCharacter
      else readText .plain (c :: done) rest
    | .escaped =>
      if c = 'u' then readText (.digits none []) done rest
      else match escape? c with
      | some e => readText .plain (e :: done) rest
      | none => .error .invalidEscape
    | .digits high read =>
      if escapeIsFull (c :: read) then
        match closeEscape high (c :: read) with
        | .error fault => .error fault
        | .ok (.inl e) => readText .plain (e :: done) rest
        | .ok (.inr h) => readText (.paired h) done rest
      else readText (.digits high (c :: read)) done rest
    | .paired h =>
      if c = '\\' then readText (.pairedEscaped h) done rest else .error .unfinishedPair
    | .pairedEscaped h =>
      if c = 'u' then readText (.digits (some h) []) done rest else .error .unfinishedPair

end MarkdownServer.Json
