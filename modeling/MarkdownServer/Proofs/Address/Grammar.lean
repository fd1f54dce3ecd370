import MarkdownServer.Address
/- Addresses as a grammar: which characters stand for which host and port. Nothing here reads a text. -/
set_option autoImplicit false

namespace MarkdownServer.Address

structure Numeral (base n : Nat) (digits : List Char) : Prop where
  nonempty : digits ≠ []
  digit : ∀ d ∈ digits, Text.isDigit base d = true
  value : Text.ofDigits base digits = n

structure OctetText (n : Nat) (digits : List Char) : Prop where
  numeral : Numeral 10 n digits
  small : n < 256
  leading : digits.head? = some '0' → digits = ['0']

structure GroupText (n : Nat) (digits : List Char) : Prop where
  numeral : Numeral 16 n digits
  short : digits.length ≤ 4

inductive OctetsText : Vector UInt8 4 → List Char → Prop where
  | mk (o p q r : UInt8) (a b c d : List Char) (first : OctetText o.toNat a) (second : OctetText p.toNat b)
      (third : OctetText q.toNat c) (fourth : OctetText r.toNat d) :
      OctetsText #v[o, p, q, r] (a ++ '.' :: b ++ '.' :: c ++ '.' :: d)

-- Groups with colons between them. Four octets may stand for the last two, and it is said if they do.
inductive GroupsText : List UInt16 → Bool → List Char → Prop where
  | last (g : UInt16) (digits : List Char) (group : GroupText g.toNat digits) : GroupsText [g] false digits
  | octets (octets : Vector UInt8 4) (text : List Char) (four : OctetsText octets text) :
      GroupsText (groupsOf octets) true text
  | cons (g : UInt16) (digits : List Char) (more : List UInt16) (octets : Bool) (text : List Char)
      (group : GroupText g.toNat digits) (others : GroupsText more octets text) :
      GroupsText (g :: more) octets (digits ++ ':' :: text)

inductive SomeGroups : List UInt16 → Bool → List Char → Prop where
  | none : SomeGroups [] false []
  | some (groups : List UInt16) (octets : Bool) (text : List Char) (written : GroupsText groups octets text) :
      SomeGroups groups octets text

inductive V6Text : List UInt16 → List Char → Prop where
  | full (groups : List UInt16) (octets : Bool) (text : List Char) (written : GroupsText groups octets text)
      (eight : groups.length = 8) : V6Text groups text
  | short (front back : List UInt16) (octets : Bool) (head tail : List Char)
      (before : SomeGroups front false head) (behind : SomeGroups back octets tail)
      (fewer : front.length + back.length < 8) :
      V6Text (front ++ List.replicate (8 - front.length - back.length) 0 ++ back) (head ++ ':' :: ':' :: tail)

inductive ZoneText : UInt32 → List Char → Prop where
  | none : ZoneText 0 []
  | some (zone : UInt32) (digits : List Char) (numeral : Numeral 10 zone.toNat digits) :
      ZoneText zone ('%' :: digits)

inductive HostText : Host → List Char → Prop where
  | v4 (octets : Vector UInt8 4) (text : List Char) (written : OctetsText octets text) :
      HostText (.v4 octets) text
  | v6 (groups : Vector UInt16 8) (zone : UInt32) (text behind : List Char)
      (written : V6Text groups.toList text) (zoned : ZoneText zone behind) :
      HostText (.v6 groups zone) ('[' :: text ++ behind ++ [']'])

inductive AddressText : Address → List Char → Prop where
  | mk (host : Host) (port : UInt16) (text digits : List Char) (written : HostText host text)
      (numeral : Numeral 10 port.toNat digits) : AddressText ⟨host, port⟩ (text ++ ':' :: digits)

end MarkdownServer.Address
