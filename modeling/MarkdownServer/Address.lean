import MarkdownServer.Text.Digits
/- Addresses to listen on: a numeric host and a port. -/
set_option autoImplicit false

namespace MarkdownServer

open Text (isDigit ofDigits hexDigits)

inductive Host where
  | v4 (octets : Vector UInt8 4)
  /-- The zone belongs to an address that is not unique on its own; zero stands for none. -/
  | v6 (groups : Vector UInt16 8) (zone : UInt32)
deriving DecidableEq, Repr

structure Address where
  host : Host
  port : UInt16
deriving DecidableEq, Repr

namespace Address

def readNumber (base bound : Nat) (cs : List Char) : Option (Nat × List Char) :=
  let digits := cs.takeWhile (isDigit base)
  if digits.isEmpty || bound ≤ ofDigits base digits then none
  else some (ofDigits base digits, cs.dropWhile (isDigit base))

def readChar (c : Char) : List Char → Option (List Char)
  | [] => none
  | d :: rest => if c = d then some rest else none

def readOctet (cs : List Char) : Option (Nat × List Char) := do
  let (n, rest) ← readNumber 10 256 cs
  if cs.head? = some '0' && rest.length + 1 < cs.length then none else some (n, rest)

def readOctets (cs : List Char) : Option (Vector UInt8 4 × List Char) := do
  let (a, cs) ← readOctet cs
  let (b, cs) ← readOctet (← readChar '.' cs)
  let (c, cs) ← readOctet (← readChar '.' cs)
  let (d, cs) ← readOctet (← readChar '.' cs)
  return (#v[a.toUInt8, b.toUInt8, c.toUInt8, d.toUInt8], cs)

def readGroup (cs : List Char) : Option (UInt16 × List Char) := do
  let (n, rest) ← readNumber 16 65536 cs
  if rest.length + 4 < cs.length then none else some (n.toUInt16, rest)

def groupOf (high low : UInt8) : UInt16 :=
  256 * high.toUInt16 + low.toUInt16

def groupsOf (octets : Vector UInt8 4) : List UInt16 :=
  [groupOf octets[0] octets[1], groupOf octets[2] octets[3]]

structure Groups where
  groups : List UInt16
  octets : Bool
  rest : List Char

/-- Reads as many groups as there are, but not more than that. A run may end in four octets, which
    take the place of two groups. -/
def readGroups (first : Bool) : Nat → List Char → Groups
  | 0, cs => ⟨[], false, cs⟩
  | room + 1, cs =>
    match if first then some cs else readChar ':' cs with
    | none => ⟨[], false, cs⟩
    | some start =>
      match if room = 0 then none else readOctets start with
      | some (octets, rest) => ⟨groupsOf octets, true, rest⟩
      | none =>
        match readGroup start with
        | none => ⟨[], false, cs⟩
        | some (group, rest) =>
          let more := readGroups false room rest
          ⟨group :: more.groups, more.octets, more.rest⟩

def readV6 (cs : List Char) : Option (Vector UInt16 8 × List Char) :=
  let head := readGroups true 8 cs
  if full : head.groups.length = 8 then
    some (⟨head.groups.toArray, by simpa using full⟩, head.rest)
  else if head.octets then none
  else do
    let rest ← readChar ':' (← readChar ':' head.rest)
    let tail := readGroups true (7 - head.groups.length) rest
    let zeros := List.replicate (8 - head.groups.length - tail.groups.length) 0
    return (.ofFn fun i => (head.groups ++ zeros ++ tail.groups).getD i 0, tail.rest)

def readZone (cs : List Char) : UInt32 × List Char :=
  match (readChar '%' cs).bind (readNumber 10 4294967296) with
  | some (n, rest) => (n.toUInt32, rest)
  | none => (0, cs)

def readPort (cs : List Char) : Option (UInt16 × List Char) := do
  let (n, rest) ← readNumber 10 65536 (← readChar ':' cs)
  return (n.toUInt16, rest)

def readHost (cs : List Char) : Option (Host × List Char) :=
  match cs with
  | '[' :: rest => do
    let (groups, rest) ← readV6 rest
    let (zone, rest) := readZone rest
    return (.v6 groups zone, ← readChar ']' rest)
  | _ => do
    let (octets, rest) ← readOctets cs
    return (.v4 octets, rest)

def parse? (text : String) : Option Address := do
  let (host, rest) ← readHost text.toList
  let (port, rest) ← readPort rest
  if rest.isEmpty then some ⟨host, port⟩ else none

def showOctets (octets : Vector UInt8 4) : String :=
  ".".intercalate (octets.toList.map fun o => toString o.toNat)

def showGroups (groups : List UInt16) : String :=
  ":".intercalate (groups.map fun g => String.ofList (hexDigits g.toNat))

def zerosAt (groups : List UInt16) : Nat :=
  (groups.takeWhile (· == 0)).length

def longestZeros (groups : List UInt16) : Nat × Nat :=
  (List.range groups.length).foldl (fun best start =>
    if best.2 < zerosAt (groups.drop start) then (start, zerosAt (groups.drop start)) else best)
    (0, 0)

def showV6 (groups : Vector UInt16 8) : String :=
  match groups.toList with
  | [0, 0, 0, 0, 0, 0xFFFF, high, low] =>
    "::ffff:" ++ showOctets #v[(high / 256).toUInt8, high.toUInt8, (low / 256).toUInt8, low.toUInt8]
  | groups =>
    let (start, length) := longestZeros groups
    if length < 2 then showGroups groups
    else showGroups (groups.take start) ++ "::" ++ showGroups (groups.drop (start + length))

def showHost : Host → String
  | .v4 octets => showOctets octets
  | .v6 groups zone =>
    "[" ++ showV6 groups ++ (if zone = 0 then "" else "%" ++ toString zone.toNat) ++ "]"

protected def toString (address : Address) : String :=
  showHost address.host ++ ":" ++ toString address.port.toNat

def loopback (port : UInt16) : Address :=
  ⟨.v4 #v[127, 0, 0, 1], port⟩

end Address
end MarkdownServer
