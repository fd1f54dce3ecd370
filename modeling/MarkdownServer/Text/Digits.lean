/- Digits, and the numbers they stand for. -/
set_option autoImplicit false

namespace MarkdownServer.Text

def digit? (base : Nat) (c : Char) : Option Nat :=
  let value :=
    if '0' ≤ c && c ≤ '9' then c.toNat - '0'.toNat
    else if 'a' ≤ c && c ≤ 'f' then c.toNat - 'a'.toNat + 10
    else if 'A' ≤ c && c ≤ 'F' then c.toNat - 'A'.toNat + 10
    else base
  if value < base then some value else none

def isDigit (base : Nat) (c : Char) : Bool :=
  (digit? base c).isSome

def ofDigits (base : Nat) (digits : List Char) : Nat :=
  digits.foldl (fun n c => base * n + (digit? base c).getD 0) 0

def hexDigits (n : Nat) : List Char :=
  Nat.toDigits 16 n

end MarkdownServer.Text
