import MarkdownServer.Json.Fault
import MarkdownServer.Json.Value
import MarkdownServer.Text.Digits
/- Reading of a JSON number. -/
set_option autoImplicit false

namespace MarkdownServer.Json

open Numeric (Double)

/-- The digits of a number that still fit into 64 bits, as `value * 10 ^ exponent`. -/
structure Significand where
  value : Nat
  exponent : Int
  full : Bool
deriving DecidableEq, Repr

def digitValue (c : Char) : Nat :=
  (Text.digit? 10 c).getD 0

namespace Significand

def none : Significand := ⟨0, 0, false⟩

def takes (s : Significand) (c : Char) : Bool :=
  10 * s.value + digitValue c < Nat.pow 2 64 && !s.full

def whole (s : Significand) (c : Char) : Significand :=
  if s.takes c then { s with value := 10 * s.value + digitValue c }
  else { s with exponent := s.exponent + 1, full := true }

def fraction (s : Significand) (c : Char) : Significand :=
  if s.takes c then
    { s with value := 10 * s.value + digitValue c, exponent := s.exponent - 1 }
  else { s with full := true }

end Significand

def exponentCap : Nat := Nat.pow 2 31

def exponentOf (digits : List Char) : Nat :=
  digits.foldl (fun n c => min (10 * n + digitValue c) exponentCap) 0

def readDigits (cs : List Char) : Except Fault (List Char × List Char) :=
  match cs with
  | [] => .error .endInValue
  | c :: _ =>
    if c.isDigit then .ok (cs.takeWhile Char.isDigit, cs.dropWhile Char.isDigit)
    else .error .invalidNumber

def Number.ofDecimal (negative : Bool) (s : Significand) (exponent : Int) : Except Fault Number :=
  match Double.ofDecimal? negative s.value (s.exponent + exponent) with
  | some x => .ok (.double x)
  | none => .error .numberOutOfRange

def Number.ofWhole (negative : Bool) (s : Significand) : Except Fault Number :=
  if s.full then ofDecimal negative s 0
  else if !negative then .ok (.integer s.value)
  else if s.value = 0 || Nat.pow 2 63 < s.value then ofDecimal negative s 0
  else .ok (.integer (-s.value))

def readExponent (negative : Bool) (s : Significand) (cs : List Char) :
    Except Fault (Option Number × List Char) :=
  match cs with
  | [] => .ok (none, cs)
  | c :: rest =>
    if c = 'e' || c = 'E' then do
      let (down, rest) :=
        match rest with
        | '+' :: rest => (false, rest)
        | '-' :: rest => (true, rest)
        | _ => (false, rest)
      let (digits, rest) ← readDigits rest
      let e : Int := exponentOf digits
      return (some (← Number.ofDecimal negative s (if down then -e else e)), rest)
    else .ok (none, cs)

def readFraction (negative : Bool) (s : Significand) (cs : List Char) :
    Except Fault (Number × List Char) :=
  match cs with
  | '.' :: rest => do
    let (digits, rest) ← readDigits rest
    let s := digits.foldl Significand.fraction { s with full := false }
    match ← readExponent negative s rest with
    | (some n, rest) => return (n, rest)
    | (none, rest) => return (← Number.ofDecimal negative s 0, rest)
  | _ => do
    match ← readExponent negative s cs with
    | (some n, rest) => return (n, rest)
    | (none, rest) => return (← Number.ofWhole negative s, rest)

def readNumber (cs : List Char) : Except Fault (Number × List Char) :=
  let (negative, cs) :=
    match cs with
    | '-' :: rest => (true, rest)
    | _ => (false, cs)
  match cs with
  | '0' :: rest =>
    if rest.head?.any Char.isDigit then .error .invalidNumber
    else readFraction negative .none rest
  | _ => do
    let (digits, rest) ← readDigits cs
    readFraction negative (digits.foldl Significand.whole .none) rest

end MarkdownServer.Json
