/- Finite binary floating-point numbers of 64 bits, with exact arithmetic on naturals. -/
set_option autoImplicit false

namespace MarkdownServer.Numeric

structure Double where
  negative : Bool
  mantissa : Nat
  exponent : Int
deriving DecidableEq, Repr

def roundQuotient (num den : Nat) : Nat :=
  let q := num / den
  let r := num % den
  if 2 * r < den then q else if den < 2 * r then q + 1 else q + q % 2

def shiftFraction (num den : Nat) (e : Int) : Nat × Nat :=
  if e < 0 then (num * Nat.pow 2 e.natAbs, den) else (num, den * Nat.pow 2 e.natAbs)

namespace Double

def leastExponent : Int := -1074

def greatestExponent : Int := 971

def zero : Double := ⟨false, 0, leastExponent⟩

def isZero (x : Double) : Bool :=
  x.mantissa == 0

def lastPlace (num den : Nat) : Int :=
  let rough : Int := (num.log2 : Int) - den.log2 - 52
  let f := shiftFraction num den rough
  max (if f.1 < f.2 * Nat.pow 2 52 then rough - 1 else rough) leastExponent

def ofFraction? (num den : Nat) : Option Double :=
  if num = 0 then some zero
  else
    let e := lastPlace num den
    let f := shiftFraction num den e
    let m := roundQuotient f.1 f.2
    let x : Double := if m = Nat.pow 2 53 then ⟨false, Nat.pow 2 52, e + 1⟩ else ⟨false, m, e⟩
    if greatestExponent < x.exponent then none else some x

def times? (x y : Double) : Option Double :=
  let f := shiftFraction (x.mantissa * y.mantissa) 1 (-(x.exponent + y.exponent))
  ofFraction? f.1 f.2

def over? (x y : Double) : Option Double :=
  let f := shiftFraction x.mantissa y.mantissa (-(x.exponent - y.exponent))
  ofFraction? f.1 f.2

def powerOfTen? (k : Nat) : Option Double :=
  ofFraction? (Nat.pow 10 k) 1

def overPowerOfTen (x : Double) (k : Nat) : Double :=
  if k ≤ 308 then (powerOfTen? k >>= over? x).getD zero
  else if x.isZero then x
  else overPowerOfTen ((powerOfTen? 308 >>= over? x).getD zero) (k - 308)
termination_by k

/-- The double for `significand * 10 ^ exponent`; none if it is too large. The significand is
    rounded before the power of ten is applied, so the last place can be off. -/
def ofDecimal? (negative : Bool) (significand : Nat) (exponent : Int) : Option Double := do
  let x ← ofFraction? significand 1
  let y ←
    if exponent < 0 then some (overPowerOfTen x exponent.natAbs)
    else if x.isZero then some x
    else if 308 < exponent then none
    else powerOfTen? exponent.natAbs >>= times? x
  return { y with negative }

end Double
end MarkdownServer.Numeric
