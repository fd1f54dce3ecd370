import Mathlib.Tactic.FieldSimp
import MarkdownServer.Json.Printer
import MarkdownServer.Proofs.Json.Integers
import MarkdownServer.Proofs.Numeric.Shortest
/- The written form of a double is a number of the grammar, with the value of its shortest decimal. -/
set_option autoImplicit false

namespace MarkdownServer.Json

open Numeric (Double)

def Exponent.tens (e : Exponent) : Int :=
  if e.sign = ['-'] then -Nat.ofDigitChars 10 e.digits 0 else Nat.ofDigitChars 10 e.digits 0

namespace Literal

def size (l : Literal) : ℚ :=
  Nat.ofDigitChars 10 (l.whole ++ l.fraction.getD []) 0 *
    10 ^ ((l.exponent.map Exponent.tens).getD 0 - (l.fraction.getD []).length)

def value (l : Literal) : ℚ := if l.negative then -l.size else l.size

end Literal

theorem zeros_value (n init : Nat) :
    Nat.ofDigitChars 10 (List.replicate n '0') init = init * 10 ^ n := by
  induction n generalizing init with
  | zero => simp
  | succ n ih =>
      rw [List.replicate_succ, Nat.ofDigitChars_cons, ih, Nat.sub_self, Nat.add_zero, Nat.pow_succ]
      ring

def Literal.ofDecimal (negative : Bool) (d : Numeric.Decimal) : Literal :=
  let digits := Nat.toDigits 10 d.coefficient
  let first : Int := d.exponent + digits.length - 1
  if first < -5 || 15 < first then
    ⟨negative, digits.take 1, if digits.drop 1 = [] then none else some (digits.drop 1),
      some ⟨'e', [if first < 0 then '-' else '+'], Nat.toDigits 10 first.natAbs⟩⟩
  else if 0 ≤ d.exponent then
    ⟨negative, digits ++ List.replicate d.exponent.toNat '0', some ['0'], none⟩
  else if 0 ≤ first then
    ⟨negative, digits.take (first.toNat + 1), some (digits.drop (first.toNat + 1)), none⟩
  else ⟨negative, ['0'], some (List.replicate (first.natAbs - 1) '0' ++ digits), none⟩

theorem decimal_literal_written (x : Double) :
    (Literal.ofDecimal x.negative x.shortest).written = writeDouble x := by
  have whole : writeDouble x = (if x.negative then ['-'] else []) ++ writeMagnitude x := by
    unfold writeDouble
    split <;> rfl
  rw [whole]
  by_cases zero : x.isZero = true
  · have none : x.shortest = ⟨0, 0⟩ := if_pos zero
    rw [none, writeMagnitude, if_pos zero]
    simp [Literal.ofDecimal, Literal.written]
  · unfold writeMagnitude Literal.ofDecimal
    rw [if_neg zero]
    dsimp only
    rw [Nat.toString_eq_repr, Nat.repr_eq_ofList_toDigits, String.toList_ofList]
    split
    · simp only [Literal.written]
      cases rest : (Nat.toDigits 10 x.shortest.coefficient).drop 1 with
      | nil => simp [Exponent.written, Nat.repr_eq_ofList_toDigits]
      | cons d ds => simp [Exponent.written, Nat.repr_eq_ofList_toDigits]
    split
    · simp [Literal.written]
    split
    · simp [Literal.written]
    · simp [Literal.written]

theorem zeros_sound (n : Nat) : ∀ c ∈ List.replicate n '0', c.isDigit = true := by
  intro c member
  rw [(List.mem_replicate.mp member).2]
  rfl

theorem scientific_sound (negative : Bool) (digits : List Char) (sound : Digits digits) (first : Int) :
    Literal.Sound ⟨negative, digits.take 1, if digits.drop 1 = [] then none else some (digits.drop 1),
      some ⟨'e', [if first < 0 then '-' else '+'], Nat.toDigits 10 first.natAbs⟩⟩ := by
  obtain ⟨nonempty, all⟩ := sound
  obtain ⟨d, rest, rfl⟩ := List.exists_cons_of_ne_nil nonempty
  obtain ⟨digit, others⟩ := List.forall_mem_cons.mp all
  refine ⟨⟨List.cons_ne_nil _ _, List.forall_mem_singleton.mpr digit⟩, ?_, ?_, ?_⟩
  · by_cases zero : d = '0'
    · exact .inl (by simp [zero])
    · exact .inr (by simpa using zero)
  · intro fraction given
    dsimp only [List.drop_one, List.tail_cons] at given
    split at given
    · cases given
    · rename_i more
      cases given
      exact ⟨more, others⟩
  · rintro e ⟨⟩
    refine ⟨.inl rfl, ?_, decimal_digits _⟩
    split
    · exact .inr (.inr rfl)
    · exact .inr (.inl rfl)

theorem decimal_literal_sound (negative : Bool) (d : Numeric.Decimal)
    (zero : d.coefficient = 0 → d.exponent = 0) : (Literal.ofDecimal negative d).Sound := by
  obtain ⟨nonempty, digits⟩ := decimal_digits d.coefficient
  have front (n : Nat) : Digits ((Nat.toDigits 10 d.coefficient).take (n + 1)) :=
    ⟨by simp, fun c member => digits c (List.mem_of_mem_take member)⟩
  have back (n : Nat) : ∀ c ∈ (Nat.toDigits 10 d.coefficient).drop n, c.isDigit = true :=
    fun c member => digits c (List.mem_of_mem_drop member)
  have leading (negative : d.exponent ≠ 0 ∨ d.coefficient ≠ 0) :
      (Nat.toDigits 10 d.coefficient).head? ≠ some '0' :=
    decimal_leading _ (by omega)
  unfold Literal.ofDecimal
  dsimp only
  split
  · exact scientific_sound negative _ ⟨nonempty, digits⟩ _
  split
  · refine ⟨⟨by simp, fun c member => ?_⟩, ?_, ?_, nofun⟩
    · exact (List.mem_append.mp member).elim (digits c) (zeros_sound _ c)
    · by_cases nothing : d.coefficient = 0
      · exact .inl (by simp [nothing, zero nothing])
      · have first := leading (.inr nothing)
        exact .inr (by rwa [List.head?_append_of_ne_nil _ nonempty])
    · rintro fraction ⟨⟩
      exact ⟨List.cons_ne_nil _ _, fun c member => List.mem_singleton.mp member ▸ rfl⟩
  rename_i notWhole
  split
  · rename_i positive
    refine ⟨front _, .inr ?_, ?_, nofun⟩
    · rw [List.head?_take, if_neg (Nat.succ_ne_zero _)]
      exact leading (.inl (by omega))
    · rintro fraction ⟨⟩
      refine ⟨?_, back _⟩
      rw [ne_eq, List.drop_eq_nil_iff]
      omega
  · refine ⟨⟨List.cons_ne_nil _ _, List.forall_mem_singleton.mpr rfl⟩, .inl rfl, ?_, nofun⟩
    rintro fraction ⟨⟩
    refine ⟨by simp, fun c member => ?_⟩
    exact (List.mem_append.mp member).elim (zeros_sound _ c) (digits c)

theorem exponent_tens (e : Int) :
    Exponent.tens ⟨'e', [if e < 0 then '-' else '+'], Nat.toDigits 10 e.natAbs⟩ = e := by
  unfold Exponent.tens
  rw [Nat.ofDigitChars_ten_toDigits]
  by_cases negative : e < 0
  · rw [if_pos negative, if_pos rfl]
    omega
  · rw [if_neg negative, if_neg (show ['+'] ≠ ['-'] by decide)]
    omega

theorem led_value (zeros n : Nat) :
    Nat.ofDigitChars 10 ('0' :: (List.replicate zeros '0' ++ Nat.toDigits 10 n)) 0 = n := by
  rw [Nat.ofDigitChars_cons, Nat.ofDigitChars_append, zeros_value, Nat.sub_self, Nat.zero_mul,
    Nat.ofDigitChars_ten_toDigits]

theorem decimal_literal_size (negative : Bool) (d : Numeric.Decimal) :
    (Literal.ofDecimal negative d).size = d.value := by
  have value : Nat.ofDigitChars 10 (Nat.toDigits 10 d.coefficient) 0 = d.coefficient :=
    Nat.ofDigitChars_ten_toDigits
  have positive : 0 < (Nat.toDigits 10 d.coefficient).length :=
    List.length_pos_of_ne_nil Nat.toDigits_ne_nil
  unfold Literal.ofDecimal Numeric.Decimal.value
  dsimp only
  split
  · have fraction : (if (Nat.toDigits 10 d.coefficient).drop 1 = [] then none
        else some ((Nat.toDigits 10 d.coefficient).drop 1)).getD [] =
          (Nat.toDigits 10 d.coefficient).drop 1 := by
      split
      · rename_i none
        rw [none, Option.getD_none]
      · rfl
    simp only [Literal.size, fraction, List.take_append_drop, value, Option.map_some, Option.getD_some,
      exponent_tens, List.length_drop]
    congr 2
    omega
  split
  · rename_i whole
    have power : (10 : ℚ) ^ d.exponent = 10 ^ d.exponent.toNat := by
      rw [← zpow_natCast, Int.toNat_of_nonneg whole]
    simp only [Literal.size, Option.getD_some, Nat.ofDigitChars_append, value, zeros_value]
    rw [power]
    simp [Nat.ofDigitChars_cons]
    field_simp
  rename_i notWhole
  split
  · simp only [Literal.size, Option.getD_some, Option.getD_none, Option.map_none, List.take_append_drop,
      value, List.length_drop]
    congr 2
    omega
  · simp only [Literal.size, Option.getD_some, Option.getD_none, Option.map_none, List.cons_append,
      List.nil_append, led_value, List.length_append, List.length_replicate]
    congr 2
    omega

end MarkdownServer.Json
