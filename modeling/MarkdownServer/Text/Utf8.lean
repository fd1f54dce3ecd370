/- Decoding of UTF-8, with the place and the extent of the first fault. -/
set_option autoImplicit false

namespace MarkdownServer.Text.Utf8

inductive Fault where
  | invalid (length index : Nat)
  | incomplete (index : Nat)
deriving DecidableEq, Repr

def Fault.message : Fault → String
  | .invalid length index =>
      "invalid utf-8 sequence of " ++ toString length ++ " bytes from index " ++ toString index
  | .incomplete index => "incomplete utf-8 byte sequence from index " ++ toString index

def isContinuation (b : UInt8) : Bool :=
  0x80 ≤ b && b ≤ 0xBF

/-- The second byte excludes overlong forms, surrogates and numbers above the last code point. -/
def mayFollow (first second : UInt8) : Bool :=
  if first = 0xE0 then 0xA0 ≤ second && second ≤ 0xBF
  else if first = 0xED then 0x80 ≤ second && second ≤ 0x9F
  else if first = 0xF0 then 0x90 ≤ second && second ≤ 0xBF
  else if first = 0xF4 then 0x80 ≤ second && second ≤ 0x8F
  else isContinuation second

def assemble (first : Nat) (more : List UInt8) : Char :=
  .ofNat (more.foldl (fun n b => 64 * n + b.toNat % 64) first)

def decodeFrom (index : Nat) (done : List Char) : List UInt8 → Except Fault (List Char)
  | [] => .ok done.reverse
  | a :: rest =>
    if a < 0x80 then decodeFrom (index + 1) (.ofNat a.toNat :: done) rest
    else if a < 0xC2 || 0xF4 < a then .error (.invalid 1 index)
    else match rest with
    | [] => .error (.incomplete index)
    | b :: rest =>
      if !mayFollow a b then .error (.invalid 1 index)
      else if a < 0xE0 then
        decodeFrom (index + 2) (assemble (a.toNat % 32) [b] :: done) rest
      else match rest with
      | [] => .error (.incomplete index)
      | c :: rest =>
        if !isContinuation c then .error (.invalid 2 index)
        else if a < 0xF0 then
          decodeFrom (index + 3) (assemble (a.toNat % 16) [b, c] :: done) rest
        else match rest with
        | [] => .error (.incomplete index)
        | d :: rest =>
          if !isContinuation d then .error (.invalid 3 index)
          else decodeFrom (index + 4) (assemble (a.toNat % 8) [b, c, d] :: done) rest

def decode (bytes : List UInt8) : Except Fault String :=
  (decodeFrom 0 [] bytes).map String.ofList

def encode (s : String) : List UInt8 :=
  s.toUTF8.toList

end MarkdownServer.Text.Utf8
