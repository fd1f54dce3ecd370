import Mathlib.Algebra.Order.Field.Power
import Mathlib.Data.Rat.Cast.Order
import Mathlib.Tactic.Linarith
import Mathlib.Tactic.NormNum
import Mathlib.Tactic.Positivity
import MarkdownServer.Numeric.Shortest
/- The shortest decimal of a double is within half a unit of its last place. -/
set_option autoImplicit false

namespace MarkdownServer.Numeric

def Double.size (x : Double) : ℚ := x.mantissa * 2 ^ x.exponent

def Double.value (x : Double) : ℚ := if x.negative then -x.size else x.size

def Decimal.value (d : Decimal) : ℚ := d.coefficient * 10 ^ d.exponent

theorem power_nonneg (base : ℚ) (e : Int) (nonneg : 0 ≤ e) : base ^ e = base ^ e.natAbs := by
  rw [← zpow_natCast, Int.natAbs_of_nonneg nonneg]

theorem power_neg (base : ℚ) (e : Int) (negative : e < 0) : base ^ e = (base ^ e.natAbs)⁻¹ := by
  have positive := power_nonneg base (-e) (by omega)
  rw [zpow_neg, Int.natAbs_neg] at positive
  rw [← positive, inv_inv]

theorem shift_one (e : Int) : 0 < (shiftFraction 1 1 e).1 ∧ 0 < (shiftFraction 1 1 e).2 ∧
    ((shiftFraction 1 1 e).1 : ℚ) / (shiftFraction 1 1 e).2 = 2 ^ (-e) := by
  unfold shiftFraction
  split
  · rename_i negative
    refine ⟨by simp, by simp, ?_⟩
    rw [zpow_neg, power_neg 2 e negative]
    simp
  · rename_i positive
    refine ⟨by simp, by simp, ?_⟩
    rw [zpow_neg, power_nonneg 2 e (by omega)]
    simp

namespace Double

theorem tens_power (k : Int) :
    0 < (tens k).1 ∧ 0 < (tens k).2 ∧ ((tens k).1 : ℚ) / (tens k).2 = 10 ^ k := by
  unfold tens
  split
  · rename_i negative
    refine ⟨by simp, by simp, ?_⟩
    rw [power_neg 10 k negative]
    simp
  · rename_i positive
    refine ⟨by simp, by simp, ?_⟩
    rw [power_nonneg 10 k (by omega)]
    simp

theorem near_limits (x : Double) (k : Int) (c : Nat) (near : x.isNear k c = true) :
    x.lowerQuarters * x.quarter k ≤ c * x.step k ∧ c * x.step k ≤ x.upperQuarters * x.quarter k := by
  unfold isNear at near
  dsimp only at near
  split at near
  · simpa using near
  · have strict := by simpa using near
    exact ⟨strict.1.le, strict.2.le⟩

-- What is found on a grid is near, and something is found wherever the multiple below is near.
theorem on_grid_near (x : Double) (k : Int) (d : Decimal) (found : x.onGrid? k = some d) :
    d.exponent = k ∧ x.isNear k d.coefficient = true := by
  unfold onGrid? at found
  dsimp only at found
  split at found
  · rename_i near above
    cases found
    refine ⟨rfl, ?_⟩
    dsimp only
    split
    · exact near
    · exact above
  · rename_i near _
    cases found
    exact ⟨rfl, near⟩
  · rename_i _ above
    cases found
    exact ⟨rfl, above⟩
  · cases found

theorem on_grid_found (x : Double) (k : Int)
    (near : x.isNear k (4 * x.mantissa * x.quarter k / x.step k) = true) : (x.onGrid? k).isSome = true := by
  unfold onGrid?
  dsimp only
  rw [near]
  cases x.isNear k (4 * x.mantissa * x.quarter k / x.step k + 1) <;> rfl

theorem step_positive (x : Double) (k : Int) : 0 < x.step k :=
  Nat.mul_pos (tens_power k).1 (shift_one _).2.1

theorem fine_grid_near (x : Double) (k : Int) (nonzero : 0 < x.mantissa) (fine : x.step k ≤ x.quarter k) :
    x.isNear k (4 * x.mantissa * x.quarter k / x.step k) = true := by
  have positive := x.step_positive k
  have below := Nat.div_mul_le_self (4 * x.mantissa * x.quarter k) (x.step k)
  have above := Nat.lt_div_mul_add positive (a := 4 * x.mantissa * x.quarter k)
  have lower : x.lowerQuarters ≤ 4 * x.mantissa - 1 := by
    unfold lowerQuarters
    split <;> omega
  have lower := Nat.mul_le_mul_right (x.quarter k) lower
  rw [Nat.sub_mul, Nat.one_mul] at lower
  have upper : x.upperQuarters * x.quarter k = 4 * x.mantissa * x.quarter k + 2 * x.quarter k :=
    Nat.add_mul _ _ _
  have room : x.quarter k ≤ 4 * x.mantissa * x.quarter k := Nat.le_mul_of_pos_left _ (by omega)
  unfold isNear
  dsimp only
  split
  · simp only [Bool.and_eq_true, decide_eq_true_eq]
    omega
  · simp only [Bool.and_eq_true, decide_eq_true_eq]
    omega

theorem tens_neg (n : Nat) : tens (-n) = (1, 10 ^ n) := by
  unfold tens
  cases n with
  | zero => rfl
  | succ n => rw [if_pos (by omega), Int.natAbs_neg, Int.natAbs_natCast]; rfl

theorem finer_grid (x : Double) (n : Nat) (small : 2 - x.exponent ≤ 33 * n) :
    x.step (-(10 * n : Nat)) ≤ x.quarter (-(10 * n : Nat)) := by
  have numerator := (shift_one (2 - x.exponent)).1
  have denominator : (shiftFraction 1 1 (2 - x.exponent)).2 ≤ 2 ^ (33 * n) := by
    unfold shiftFraction
    split
    · exact Nat.one_le_two_pow
    · rw [Nat.one_mul]
      exact Nat.pow_le_pow_right (by decide) (by omega)
  unfold step quarter
  rw [tens_neg, Nat.one_mul]
  calc (shiftFraction 1 1 (2 - x.exponent)).2 ≤ 2 ^ (33 * n) := denominator
    _ = (2 ^ 33) ^ n := Nat.pow_mul 2 33 n
    _ ≤ (10 ^ 10) ^ n := Nat.pow_le_pow_left (by decide) n
    _ = 10 ^ (10 * n) := (Nat.pow_mul 10 10 n).symm
    _ ≤ (shiftFraction 1 1 (2 - x.exponent)).1 * 10 ^ (10 * n) := Nat.le_mul_of_pos_left _ numerator

theorem finest_grid (x : Double) (least : leastExponent ≤ x.exponent) :
    x.step (-340) ≤ x.quarter (-340) := by
  have least : -1074 ≤ x.exponent := least
  simpa using x.finer_grid 34 (by omega)

theorem shortest_found (x : Double) (nonzero : 0 < x.mantissa) (least : leastExponent ≤ x.exponent) :
    ∃ k, x.onGrid? k = some x.shortest := by
  have zero : ¬ x.isZero = true := by simp [isZero]; omega
  have listed : (-340 : Int) ∈ gridExponents := List.mem_map.mpr ⟨649, by simp, by norm_num⟩
  have some := x.on_grid_found (-340) (x.fine_grid_near (-340) nonzero (x.finest_grid least))
  cases first : gridExponents.findSome? x.onGrid? with
  | none =>
      rw [List.findSome?_eq_none_iff.mp first (-340) listed] at some
      cases some
  | some d =>
      obtain ⟨k, _, found⟩ := List.exists_of_findSome?_eq_some first
      exact ⟨k, by rw [found, shortest, if_neg zero, first, Option.getD_some]⟩

theorem grid_near (x : Double) (k : Int) (c : Nat) (near : x.isNear k c = true) :
    x.lowerQuarters * 2 ^ (x.exponent - 2) ≤ (c * 10 ^ k : ℚ) ∧
      (c * 10 ^ k : ℚ) ≤ x.upperQuarters * 2 ^ (x.exponent - 2) := by
  obtain ⟨lower, upper⟩ := near_limits x k c near
  obtain ⟨one, one', two⟩ := shift_one (2 - x.exponent)
  obtain ⟨ten, ten', power⟩ := tens_power k
  unfold quarter step at lower upper
  rw [neg_sub] at two
  rw [← two, ← power]
  generalize (shiftFraction 1 1 (2 - x.exponent)).1 = p at *
  generalize (shiftFraction 1 1 (2 - x.exponent)).2 = q at *
  generalize (tens k).1 = r at *
  generalize (tens k).2 = s at *
  have q' : (0 : ℚ) < q := by exact_mod_cast one'
  have s' : (0 : ℚ) < s := by exact_mod_cast ten'
  have lower : (x.lowerQuarters * (p * s) : ℚ) ≤ c * (r * q) := by exact_mod_cast lower
  have upper : (c * (r * q) : ℚ) ≤ x.upperQuarters * (p * s) := by exact_mod_cast upper
  constructor
  · rw [← mul_div_assoc, ← mul_div_assoc, div_le_div_iff₀ q' s']
    linarith
  · rw [← mul_div_assoc, ← mul_div_assoc, div_le_div_iff₀ s' q']
    linarith

theorem shortest_near (x : Double) (least : leastExponent ≤ x.exponent) :
    |x.shortest.value - x.size| ≤ 2 ^ x.exponent / 2 := by
  rcases Nat.eq_zero_or_pos x.mantissa with zero | nonzero
  · have none : x.shortest = ⟨0, 0⟩ := by rw [shortest, isZero, zero]; rfl
    simp [none, Decimal.value, size, zero]
    positivity
  · obtain ⟨k, found⟩ := x.shortest_found nonzero least
    obtain ⟨rfl, near⟩ := x.on_grid_near k _ found
    obtain ⟨lower, upper⟩ := x.grid_near _ _ near
    have quarters : (4 * x.mantissa - 2 : ℚ) ≤ x.lowerQuarters := by
      have quarters : 4 * x.mantissa ≤ x.lowerQuarters + 2 := by
        unfold lowerQuarters
        split <;> omega
      have cast : (4 * x.mantissa : ℚ) ≤ x.lowerQuarters + 2 := by exact_mod_cast quarters
      linarith
    have quarters' : (x.upperQuarters : ℚ) = 4 * x.mantissa + 2 := by
      simp [upperQuarters]
    have unit : (2 : ℚ) ^ (x.exponent - 2) = 2 ^ x.exponent / 4 := by
      rw [zpow_sub₀ (by norm_num)]
      norm_num
    have positive : (0 : ℚ) < 2 ^ x.exponent := by positivity
    rw [unit] at lower upper
    rw [quarters'] at upper
    have lower := (mul_le_mul_of_nonneg_right quarters (by positivity)).trans lower
    rw [abs_le, Decimal.value, size]
    constructor <;> linarith

theorem shortest_positive (x : Double) (zero : x.shortest.coefficient = 0) : x.shortest = ⟨0, 0⟩ := by
  unfold shortest at zero ⊢
  split at zero
  · rename_i none
    rw [if_pos none]
  rename_i nonzero
  rw [if_neg nonzero]
  cases first : gridExponents.findSome? x.onGrid? with
  | none => rfl
  | some d =>
      rw [first, Option.getD_some] at zero
      obtain ⟨k, _, found⟩ := List.exists_of_findSome?_eq_some first
      obtain ⟨_, near⟩ := x.on_grid_near k d found
      have lower := (near_limits x k _ near).1
      rw [zero, Nat.zero_mul, Nat.le_zero, Nat.mul_eq_zero] at lower
      have unit : 0 < x.quarter k := Nat.mul_pos (shift_one _).1 (tens_power k).2.1
      have mantissa : x.mantissa ≠ 0 := by simpa [isZero] using nonzero
      have positive : 0 < x.lowerQuarters := by
        unfold lowerQuarters
        split <;> omega
      omega

end Double
end MarkdownServer.Numeric
