import MarkdownServer.Numeric.Double
/- The shortest decimal that reads back as a given double. -/
set_option autoImplicit false

namespace MarkdownServer.Numeric

structure Decimal where
  coefficient : Nat
  exponent : Int
deriving DecidableEq, Repr

def gridExponents : List Int :=
  (List.range 650).map fun (i : Nat) => 309 - (i : Int)

namespace Double

/-- A quarter of the last place is the unit in which the numbers that round to `x` reach from
    `lowerQuarters` to `upperQuarters`. -/
def lowerQuarters (x : Double) : Nat :=
  if x.mantissa = Nat.pow 2 52 && leastExponent < x.exponent then 4 * x.mantissa - 1
  else 4 * x.mantissa - 2

def upperQuarters (x : Double) : Nat :=
  4 * x.mantissa + 2

def tens (k : Int) : Nat × Nat :=
  if k < 0 then (1, Nat.pow 10 k.natAbs) else (Nat.pow 10 k.natAbs, 1)

def quarter (x : Double) (k : Int) : Nat :=
  (shiftFraction 1 1 (2 - x.exponent)).1 * (tens k).2

def step (x : Double) (k : Int) : Nat :=
  (tens k).1 * (shiftFraction 1 1 (2 - x.exponent)).2

def isNear (x : Double) (k : Int) (c : Nat) : Bool :=
  let lower := x.lowerQuarters * x.quarter k
  let upper := x.upperQuarters * x.quarter k
  if x.mantissa % 2 == 0 then lower ≤ c * x.step k && c * x.step k ≤ upper
  else lower < c * x.step k && c * x.step k < upper

def onGrid? (x : Double) (k : Int) : Option Decimal :=
  let value := 4 * x.mantissa * x.quarter k
  let c := value / x.step k
  let below := value - c * x.step k
  let above := (c + 1) * x.step k - value
  match x.isNear k c, x.isNear k (c + 1) with
  | true, true => some ⟨if below < above || (below == above && c % 2 == 0) then c else c + 1, k⟩
  | true, false => some ⟨c, k⟩
  | false, true => some ⟨c + 1, k⟩
  | false, false => none

def shortest (x : Double) : Decimal :=
  if x.isZero then ⟨0, 0⟩ else (gridExponents.findSome? x.onGrid?).getD ⟨0, 0⟩

end Double
end MarkdownServer.Numeric
