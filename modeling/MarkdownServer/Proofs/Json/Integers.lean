import Mathlib.Data.Nat.Digits.Defs
import MarkdownServer.Proofs.Json.Literals
/- A whole number has one spelling, its decimal digits. -/
set_option autoImplicit false

namespace MarkdownServer.Json

theorem decimal_digits (n : Nat) : Digits (Nat.toDigits 10 n) :=
  ⟨Nat.toDigits_ne_nil, fun _ member => Nat.isDigit_of_mem_toDigits (by decide) (by decide) member⟩

theorem decimal_leading (n : Nat) (positive : 0 < n) : (Nat.toDigits 10 n).head? ≠ some '0' := by
  induction n using Nat.strongRecOn with
  | ind n ih =>
      rw [Nat.toDigits_eq_if (by decide)]
      split
      · rename_i small
        have all : ∀ n < 10, 0 < n → [Nat.digitChar n].head? ≠ some '0' := by decide
        exact all n small positive
      · rename_i large
        have shorter := ih (n / 10) (by omega) (by omega)
        cases digits : Nat.toDigits 10 (n / 10) with
        | nil => exact absurd digits Nat.toDigits_ne_nil
        | cons d ds => simpa [digits] using shorter

def integerLiteral (i : Int) : Literal := ⟨decide (i < 0), Nat.toDigits 10 i.natAbs, none, none⟩

theorem integer_sound (i : Int) : (integerLiteral i).Sound where
  whole := decimal_digits i.natAbs
  leading := by
    by_cases zero : i.natAbs = 0
    · exact .inl (by rw [integerLiteral, zero]; rfl)
    · exact .inr (decimal_leading _ (Nat.pos_of_ne_zero zero))
  fraction _ same := nomatch same
  exponent _ same := nomatch same

theorem integer_written (i : Int) : (integerLiteral i).written = (toString i).toList := by
  rw [Int.toString_eq_repr, Int.repr_eq_if]
  by_cases negative : i < 0
  · have magnitude : (-i).toNat = i.natAbs := by omega
    rw [if_neg (Int.not_le.mpr negative), magnitude]
    simp [integerLiteral, Literal.written, negative, Nat.repr_eq_ofList_toDigits]
  · have magnitude : i.toNat = i.natAbs := by omega
    rw [if_pos (Int.not_lt.mp negative), magnitude]
    simp [integerLiteral, Literal.written, negative, Nat.repr_eq_ofList_toDigits]

theorem integer_value (i : Int) (low : -9223372036854775808 ≤ i)
    (high : i ≤ 18446744073709551615) :
    (integerLiteral i).number? = some (.integer i) := by
  have magnitude : (integerLiteral i).magnitude = i.natAbs := Nat.ofDigitChars_ten_toDigits
  have value : (integerLiteral i).integer? = some i := by
    unfold Literal.integer?
    rw [magnitude]
    by_cases negative : i < 0
    · simp only [integerLiteral, negative, decide_true, if_true]
      rw [if_neg (by simp), if_pos (by omega)]
      congr 1
      omega
    · simp only [integerLiteral, negative, decide_false]
      rw [if_neg (by simp), if_neg (by simp), if_pos (by omega)]
      congr 1
      omega
  rw [Literal.number?, value]

theorem digit_char_value (c : Char) (digit : c.isDigit = true) :
    c.toNat - '0'.toNat < 10 ∧ Nat.digitChar (c.toNat - '0'.toNat) = c := by
  have bounds := Char.isDigit_iff_toNat.mp digit
  have zero : '0'.toNat = 48 := rfl
  have nine : '9'.toNat = 57 := rfl
  have all : ∀ n < 10, Nat.digitChar n = Char.ofNat (n + 48) := by decide
  refine ⟨by omega, ?_⟩
  rw [all _ (by omega), zero, Nat.sub_add_cancel (by omega), Char.ofNat_toNat]

theorem digits_canonical (digits : List Char) (sound : Digits digits)
    (leading : digits = ['0'] ∨ digits.head? ≠ some '0') :
    Nat.toDigits 10 (Nat.ofDigitChars 10 digits 0) = digits ∧
      (digits ≠ ['0'] → 0 < Nat.ofDigitChars 10 digits 0) := by
  induction digits using List.reverseRecOn with
  | nil => exact absurd rfl sound.1
  | append_singleton digits c ih =>
      obtain ⟨small, same⟩ := digit_char_value c (sound.2 c (by simp))
      have value : Nat.ofDigitChars 10 (digits ++ [c]) 0 =
          10 * Nat.ofDigitChars 10 digits 0 + (c.toNat - '0'.toNat) := by
        rw [Nat.ofDigitChars_append, Nat.ofDigitChars_cons, Nat.ofDigitChars_nil]
      rw [value]
      cases digits with
      | nil =>
          rw [Nat.ofDigitChars_nil, Nat.mul_zero, Nat.zero_add, Nat.toDigits_of_lt_base small, same]
          refine ⟨rfl, fun other => Nat.pos_of_ne_zero fun zero => other ?_⟩
          rw [zero] at same
          rw [← same]
          rfl
      | cons d digits =>
          have first : d ≠ '0' := by simpa using leading
          obtain ⟨earlier, positive⟩ := ih
            ⟨List.cons_ne_nil d digits, fun e member => sound.2 e (List.mem_append_left _ member)⟩
            (.inr (by simpa using first))
          have positive := positive (by simp [first])
          rw [← Nat.toDigits_append_toDigits (by decide) positive small, earlier,
            Nat.toDigits_of_lt_base small, same]
          exact ⟨rfl, fun _ => by omega⟩

theorem integer_literal (l : Literal) (sound : l.Sound) (i : Int) (value : l.integer? = some i) :
    (-9223372036854775808 ≤ i ∧ i ≤ 18446744073709551615) ∧ l = integerLiteral i := by
  obtain ⟨canonical, _⟩ := digits_canonical l.whole sound.whole sound.leading
  change Nat.toDigits 10 l.magnitude = l.whole at canonical
  unfold Literal.integer? at value
  split at value
  · cases value
  rename_i plain
  have absent : l.fraction = none ∧ l.exponent = none := by simpa using plain
  obtain ⟨negative, whole, fraction, exponent⟩ := l
  obtain ⟨rfl, rfl⟩ := absent
  cases negative with
  | true =>
      simp only [if_true] at value
      split at value
      · rename_i fits
        cases value
        refine ⟨by omega, ?_⟩
        simp [integerLiteral, canonical, fits.1]
      · cases value
  | false =>
      simp only [Bool.false_eq_true, if_false] at value
      split at value
      · cases value
        refine ⟨by omega, ?_⟩
        simp [integerLiteral, canonical]
      · cases value

theorem integer_spelled_iff (i : Int) (cs : List Char) :
    ScalarSpelled (.number (.integer i)) cs ↔
      (-9223372036854775808 ≤ i ∧ i ≤ 18446744073709551615) ∧ cs = (toString i).toList := by
  constructor
  · intro spelled
    cases spelled with
    | number l sound n value =>
        have whole : l.integer? = some i := by
          unfold Literal.number? at value
          split at value
          · rename_i j same
            cases value
            exact same
          · simp at value
        obtain ⟨bounds, rfl⟩ := integer_literal l sound i whole
        exact ⟨bounds, integer_written i⟩
  · rintro ⟨⟨low, high⟩, rfl⟩
    rw [← integer_written]
    exact .number _ (integer_sound i) _ (integer_value i low high)

end MarkdownServer.Json
