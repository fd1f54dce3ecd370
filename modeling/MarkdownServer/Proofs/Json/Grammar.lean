import MarkdownServer.Proofs.Json.Suffix
/- JSON as a grammar: which characters spell which value. Nothing here reads a text. An object is
   spelled by its members in any order; of those of one name the last one counts. -/
set_option autoImplicit false

namespace MarkdownServer.Json

open Numeric (Double)

def escapeLetters : List (Char × Char) :=
  [('"', '"'), ('\\', '\\'), ('/', '/'), ('b', '\x08'), ('f', '\x0c'), ('n', '\n'), ('r', '\r'),
    ('t', '\t')]

structure HexUnit (digits : List Char) (n : Nat) : Prop where
  four : digits.length = 4
  hex : ∀ d ∈ digits, Text.isDigit 16 d = true
  value : Text.ofDigits 16 digits = n

inductive CharSpelled : Char → List Char → Prop where
  | itself (c : Char) (visible : 32 ≤ c.toNat) (quote : c ≠ '"') (backslash : c ≠ '\\') :
      CharSpelled c [c]
  | named (letter c : Char) (known : (letter, c) ∈ escapeLetters) : CharSpelled c ['\\', letter]
  | numbered (digits : List Char) (n : Nat) (unit : HexUnit digits n)
      (single : ¬ (0xD800 ≤ n ∧ n ≤ 0xDFFF)) : CharSpelled (.ofNat n) ('\\' :: 'u' :: digits)
  | paired (high low : List Char) (h l : Nat) (upper : HexUnit high h) (lower : HexUnit low l)
      (first : 0xD800 ≤ h ∧ h ≤ 0xDBFF) (second : 0xDC00 ≤ l ∧ l ≤ 0xDFFF) :
      CharSpelled (.ofNat (0x10000 + (h - 0xD800) * 0x400 + (l - 0xDC00)))
        ('\\' :: 'u' :: high ++ '\\' :: 'u' :: low)

inductive TextSpelled : List Char → List Char → Prop where
  | nil : TextSpelled [] []
  | cons (c : Char) (cs spelled rest : List Char) (first : CharSpelled c spelled)
      (more : TextSpelled cs rest) : TextSpelled (c :: cs) (spelled ++ rest)

def Digits (cs : List Char) : Prop := cs ≠ [] ∧ ∀ c ∈ cs, c.isDigit = true

structure Exponent where
  mark : Char
  sign : List Char
  digits : List Char

namespace Exponent

def written (e : Exponent) : List Char := e.mark :: e.sign ++ e.digits

structure Sound (e : Exponent) : Prop where
  mark : e.mark = 'e' ∨ e.mark = 'E'
  sign : e.sign = [] ∨ e.sign = ['+'] ∨ e.sign = ['-']
  digits : Digits e.digits

def power (e : Exponent) : Int :=
  if e.sign = ['-'] then -exponentOf e.digits else exponentOf e.digits

end Exponent

structure Literal where
  negative : Bool
  whole : List Char
  fraction : Option (List Char)
  exponent : Option Exponent

namespace Literal

def written (l : Literal) : List Char :=
  (if l.negative then ['-'] else []) ++ l.whole ++ (l.fraction.map ('.' :: ·)).getD [] ++
    (l.exponent.map Exponent.written).getD []

structure Sound (l : Literal) : Prop where
  whole : Digits l.whole
  leading : l.whole = ['0'] ∨ l.whole.head? ≠ some '0'
  fraction : ∀ digits, l.fraction = some digits → Digits digits
  exponent : ∀ e, l.exponent = some e → e.Sound

def magnitude (l : Literal) : Nat := Nat.ofDigitChars 10 l.whole 0

-- A number without point and exponent is whole if it has 64 bits, with a sign or without one. There is
-- no negative zero among the whole numbers.
def integer? (l : Literal) : Option Int :=
  if l.fraction.isSome || l.exponent.isSome then none
  else if l.negative then
    if 0 < l.magnitude ∧ l.magnitude ≤ 9223372036854775808 then some (-l.magnitude) else none
  else if l.magnitude ≤ 18446744073709551615 then some l.magnitude
  else none

def significand (l : Literal) : Significand :=
  let whole := l.whole.foldl .whole .none
  match l.fraction with
  | none => whole
  | some digits => digits.foldl .fraction { whole with full := false }

def double? (l : Literal) : Option Double :=
  Double.ofDecimal? l.negative l.significand.value
    (l.significand.exponent + (l.exponent.map Exponent.power).getD 0)

-- Any number that is not whole is a double, if it is not too large for one.
def number? (l : Literal) : Option Number :=
  match l.integer? with
  | some i => some (.integer i)
  | none => l.double?.map .double

end Literal

inductive ScalarSpelled : Value → List Char → Prop where
  | null : ScalarSpelled .null "null".toList
  | yes : ScalarSpelled (.boolean true) "true".toList
  | no : ScalarSpelled (.boolean false) "false".toList
  | number (l : Literal) (sound : l.Sound) (n : Number) (value : l.number? = some n) :
      ScalarSpelled (.number n) l.written
  | text (s : String) (inside : List Char) (spelled : TextSpelled s.toList inside) :
      ScalarSpelled (.text s) ('"' :: inside ++ ['"'])

inductive Listed {α : Type} (entry : α → List Char → Prop) : List α → List Char → Prop where
  | none (space : List Char) (blank : Blank space) : Listed entry [] space
  | last (a : α) (front body back : List Char) (before : Blank front) (spelled : entry a body)
      (behind : Blank back) : Listed entry [a] (front ++ body ++ back)
  | cons (a b : α) (more : List α) (front body back rest : List Char) (before : Blank front)
      (spelled : entry a body) (behind : Blank back) (others : Listed entry (b :: more) rest) :
      Listed entry (a :: b :: more) (front ++ body ++ back ++ ',' :: rest)

inductive MemberSpelled (inner : Value → List Char → Prop) : String × Value → List Char → Prop where
  | mk (name : String) (v : Value) (key behind before body : List Char)
      (named : TextSpelled name.toList key) (space : Blank behind) (space' : Blank before)
      (spelled : inner v body) :
      MemberSpelled inner (name, v) ('"' :: key ++ '"' :: behind ++ ':' :: before ++ body)

inductive Nested (inner : Value → List Char → Prop) : Value → List Char → Prop where
  | scalar (v : Value) (body : List Char) (spelled : ScalarSpelled v body) : Nested inner v body
  | array (items : List Value) (inside : List Char) (listed : Listed inner items inside) :
      Nested inner (.array items) ('[' :: inside ++ [']'])
  | object (members : List (String × Value)) (inside : List Char)
      (listed : Listed (MemberSpelled inner) members inside) :
      Nested inner (.ofMembers members) ('\x7b' :: inside ++ ['\x7d'])

-- The spellings of a value in which arrays and objects are nested no deeper than that.
def Spelled : Nat → Value → List Char → Prop
  | 0 => ScalarSpelled
  | levels + 1 => Nested (Spelled levels)

def deepest : Nat := 127

inductive JsonText (v : Value) : List Char → Prop where
  | mk (front body back : List Char) (before : Blank front) (spelled : Spelled deepest v body)
      (behind : Blank back) : JsonText v (front ++ body ++ back)

end MarkdownServer.Json
