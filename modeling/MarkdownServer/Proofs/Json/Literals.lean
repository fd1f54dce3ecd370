import Mathlib.Data.List.Induction
import MarkdownServer.Proofs.Json.Grammar
import MarkdownServer.Proofs.Json.Steps
/- The reader of numbers takes just the numbers of the grammar, with the values they have there. -/
set_option autoImplicit false

namespace MarkdownServer.Json

open Numeric (Double)

def isEnd (c : Char) : Bool := isSpace c || c == ',' || c == ']' || c == '\x7d'

def Ends (rest : List Char) : Prop := rest.head?.all isEnd = true

theorem end_cases (c : Char) (ends : isEnd c = true) :
    c = ' ' ∨ c = '\t' ∨ c = '\n' ∨ c = '\r' ∨ c = ',' ∨ c = ']' ∨ c = '\x7d' := by
  simpa [isEnd, isSpace, or_assoc] using ends

def goesOn (c : Char) : Bool := c.isDigit || c == '.' || c == 'e' || c == 'E'

theorem ends_stop (rest : List Char) (ends : Ends rest) : rest.head?.any goesOn = false := by
  cases rest with
  | nil => rfl
  | cons c rest =>
      change goesOn c = false
      rcases end_cases c ends with rfl | rfl | rfl | rfl | rfl | rfl | rfl <;> decide

theorem read_digits_sound (cs digits rest : List Char) (read : readDigits cs = .ok (digits, rest)) :
    cs = digits ++ rest ∧ Digits digits := by
  unfold readDigits at read
  split at read
  · cases read
  · rename_i c cs
    split at read
    · rename_i digit
      cases read
      refine ⟨(List.takeWhile_append_dropWhile).symm, ?_, fun d member => ?_⟩
      · rw [List.takeWhile_cons_of_pos digit]
        exact List.cons_ne_nil _ _
      · exact List.all_eq_true.mp List.all_takeWhile d member
    · cases read

theorem digits_read (digits rest : List Char) (sound : Digits digits)
    (stop : rest.head?.any Char.isDigit = false) : readDigits (digits ++ rest) = .ok (digits, rest) := by
  have taken : (digits ++ rest).takeWhile Char.isDigit = digits ∧
      (digits ++ rest).dropWhile Char.isDigit = rest := by
    rw [List.takeWhile_append_of_pos sound.2, List.dropWhile_append_of_pos sound.2]
    cases rest with
    | nil => simp
    | cons c rest =>
        have other : ¬ c.isDigit = true := by simpa using stop
        simp [other]
  cases digits with
  | nil => exact absurd rfl sound.1
  | cons c digits =>
      have digit := sound.2 c List.mem_cons_self
      simp only [List.cons_append] at taken ⊢
      simp only [readDigits, digit, if_true, taken.1, taken.2]

theorem read_exponent_sound (negative : Bool) (s : Significand) (cs rest : List Char)
    (number : Option Number) (read : readExponent negative s cs = .ok (number, rest)) :
    (number = none ∧ cs = rest) ∨
      ∃ (e : Exponent) (n : Number), e.Sound ∧ cs = e.written ++ rest ∧ number = some n ∧
        Number.ofDecimal negative s e.power = .ok n := by
  unfold readExponent at read
  split at read
  · cases read
    exact .inl ⟨rfl, rfl⟩
  · rename_i c cs
    split at read
    · rename_i mark
      split at read
      rename_i down signed split
      obtain ⟨⟨digits, left⟩, taken, read⟩ := bind_ok _ _ _ read
      obtain ⟨n, value, read⟩ := bind_ok _ _ _ read
      cases read
      obtain ⟨rfl, digits'⟩ := read_digits_sound signed digits _ taken
      have marked : c = 'e' ∨ c = 'E' := by simpa using mark
      right
      split at split
      · cases split
        exact ⟨⟨c, ['+'], digits⟩, n, ⟨marked, by simp, digits'⟩, by simp [Exponent.written], rfl, value⟩
      · cases split
        exact ⟨⟨c, ['-'], digits⟩, n, ⟨marked, by simp, digits'⟩, by simp [Exponent.written], rfl, value⟩
      · cases split
        exact ⟨⟨c, [], digits⟩, n, ⟨marked, by simp, digits'⟩, by simp [Exponent.written], rfl, value⟩
    · cases read
      exact .inl ⟨rfl, rfl⟩

theorem digits_not_sign (digits : List Char) (sound : Digits digits) :
    ∃ d ds, digits = d :: ds ∧ d ≠ '+' ∧ d ≠ '-' := by
  cases digits with
  | nil => exact absurd rfl sound.1
  | cons d ds =>
      have digit := sound.2 d List.mem_cons_self
      refine ⟨d, ds, rfl, ?_, ?_⟩ <;>
      · rintro rfl
        cases digit

theorem exponent_read (negative : Bool) (s : Significand) (e : Exponent) (sound : e.Sound)
    (rest : List Char) (stop : rest.head?.any Char.isDigit = false) :
    readExponent negative s (e.written ++ rest) =
      (Number.ofDecimal negative s e.power).map fun n => (some n, rest) := by
  obtain ⟨mark, sign, digits⟩ := e
  obtain ⟨marked, signed, digits'⟩ := sound
  have marked' : (decide (mark = 'e') || decide (mark = 'E')) = true := by simpa using marked
  have ended := digits_read digits rest digits' stop
  dsimp only [Exponent.written, Exponent.power, List.cons_append, List.append_assoc]
  rcases signed with rfl | rfl | rfl
  · obtain ⟨d, ds, rfl, plus, minus⟩ := digits_not_sign digits digits'
    rw [List.cons_append] at ended
    simp [readExponent, marked', plus, minus, ended]
    rfl
  · simp [readExponent, marked', ended]
    rfl
  · simp [readExponent, marked', ended]
    rfl

theorem stop_digit (rest : List Char) (stop : rest.head?.any goesOn = false) :
    rest.head?.any Char.isDigit = false := by
  cases rest with
  | nil => rfl
  | cons c rest =>
      simp only [List.head?_cons, Option.any_some, goesOn, Bool.or_eq_false_iff] at stop ⊢
      exact stop.1.1.1

def finished (negative : Bool) (s : Significand) (plain : Except Fault Number) :
    Option Exponent → Except Fault Number
  | none => plain
  | some e => Number.ofDecimal negative s e.power

theorem number_end_sound (negative : Bool) (s : Significand) (cs rest : List Char) (n : Number)
    (plain : Except Fault Number)
    (read : (do
      match ← readExponent negative s cs with
      | (some n, rest) => return (n, rest)
      | (none, rest) => return (← plain, rest)) = Except.ok (n, rest)) :
    ∃ exponent : Option Exponent, (∀ e, exponent = some e → e.Sound) ∧
      cs = (exponent.map Exponent.written).getD [] ++ rest ∧
      finished negative s plain exponent = .ok n := by
  obtain ⟨⟨number, left⟩, taken, read⟩ := bind_ok _ _ _ read
  obtain ⟨rfl, rfl⟩ | ⟨e, m, sound, rfl, rfl, value⟩ := read_exponent_sound negative s cs left number taken
  · obtain ⟨m, value, read⟩ := bind_ok _ _ _ read
    cases read
    exact ⟨none, fun _ same => (nomatch same), rfl, value⟩
  · cases read
    exact ⟨some e, fun _ same => Option.some.inj same ▸ sound, rfl, value⟩

theorem number_end_read (negative : Bool) (s : Significand) (exponent : Option Exponent)
    (sound : ∀ e, exponent = some e → e.Sound) (plain : Except Fault Number) (rest : List Char)
    (stop : rest.head?.any goesOn = false) :
    (do
      match ← readExponent negative s ((exponent.map Exponent.written).getD [] ++ rest) with
      | (some n, rest) => return (n, rest)
      | (none, rest) => return (← plain, rest)) =
      (finished negative s plain exponent).map fun n => (n, rest) := by
  cases exponent with
  | some e =>
      simp only [Option.map_some, Option.getD_some, exponent_read negative s e (sound e rfl) rest
        (stop_digit rest stop), finished]
      cases Number.ofDecimal negative s e.power <;> rfl
  | none =>
      have absent : readExponent negative s rest = .ok (none, rest) := by
        cases rest with
        | nil => rfl
        | cons c rest =>
            have plain : (decide (c = 'e') || decide (c = 'E')) = false := by
              simp [goesOn] at stop
              simp [stop]
            simp [readExponent, plain]
      simp only [Option.map_none, Option.getD_none, List.nil_append, absent, finished]
      cases plain <;> rfl

def completed (negative : Bool) (s : Significand) (fraction : Option (List Char))
    (exponent : Option Exponent) : Except Fault Number :=
  match fraction with
  | none => finished negative s (Number.ofWhole negative s) exponent
  | some digits =>
      let s := digits.foldl .fraction { s with full := false }
      finished negative s (Number.ofDecimal negative s 0) exponent

theorem read_fraction_sound (negative : Bool) (s : Significand) (cs rest : List Char) (n : Number)
    (read : readFraction negative s cs = .ok (n, rest)) :
    ∃ (fraction : Option (List Char)) (exponent : Option Exponent),
      (∀ digits, fraction = some digits → Digits digits) ∧ (∀ e, exponent = some e → e.Sound) ∧
      cs = (fraction.map ('.' :: ·)).getD [] ++ ((exponent.map Exponent.written).getD [] ++ rest) ∧
      completed negative s fraction exponent = .ok n := by
  unfold readFraction at read
  split at read
  · rename_i behind
    obtain ⟨⟨digits, left⟩, taken, read⟩ := bind_ok _ _ _ read
    obtain ⟨split, digits'⟩ := read_digits_sound behind digits left taken
    obtain ⟨exponent, sound, rfl, value⟩ := number_end_sound negative _ left rest n _ read
    exact ⟨some digits, exponent, fun _ same => Option.some.inj same ▸ digits', sound, by simp [split],
      value⟩
  · obtain ⟨exponent, sound, rfl, value⟩ := number_end_sound negative _ cs rest n _ read
    exact ⟨none, exponent, fun _ same => (nomatch same), sound, rfl, value⟩

theorem exponent_stops (exponent : Option Exponent) (sound : ∀ e, exponent = some e → e.Sound)
    (rest : List Char) (stop : rest.head?.any goesOn = false) (c : Char)
    (start : ((exponent.map Exponent.written).getD [] ++ rest).head? = some c) :
    c.isDigit = false ∧ c ≠ '.' := by
  cases exponent with
  | none =>
      simp only [Option.map_none, Option.getD_none, List.nil_append] at start
      simp only [start, Option.any_some, goesOn, Bool.or_eq_false_iff, beq_eq_false_iff_ne] at stop
      exact ⟨stop.1.1.1, stop.1.1.2⟩
  | some e =>
      simp only [Option.map_some, Option.getD_some, Exponent.written, List.cons_append, List.head?_cons,
        Option.some.injEq] at start
      subst start
      rcases (sound e rfl).mark with mark | mark <;> rw [mark] <;> exact ⟨by decide, by decide⟩

theorem tail_stop (fraction : Option (List Char)) (exponent : Option Exponent)
    (sound : ∀ e, exponent = some e → e.Sound) (rest : List Char)
    (stop : rest.head?.any goesOn = false) :
    ((fraction.map ('.' :: ·)).getD [] ++ ((exponent.map Exponent.written).getD [] ++ rest)).head?.any
      Char.isDigit = false := by
  cases fraction with
  | some digits => rfl
  | none =>
      rw [Option.map_none, Option.getD_none, List.nil_append]
      cases start : ((exponent.map Exponent.written).getD [] ++ rest).head? with
      | none => rfl
      | some c => exact (exponent_stops exponent sound rest stop c start).1

theorem fraction_read (negative : Bool) (s : Significand) (fraction : Option (List Char))
    (exponent : Option Exponent) (digits' : ∀ digits, fraction = some digits → Digits digits)
    (sound : ∀ e, exponent = some e → e.Sound) (rest : List Char)
    (stop : rest.head?.any goesOn = false) :
    readFraction negative s
      ((fraction.map ('.' :: ·)).getD [] ++ ((exponent.map Exponent.written).getD [] ++ rest)) =
      (completed negative s fraction exponent).map fun n => (n, rest) := by
  cases fraction with
  | none =>
      have plain : ((exponent.map Exponent.written).getD [] ++ rest).head? ≠ some '.' := fun point =>
        (exponent_stops exponent sound rest stop '.' point).2 rfl
      rw [Option.map_none, Option.getD_none, List.nil_append, read_fraction_plain _ _ _ plain]
      exact number_end_read negative s exponent sound _ rest stop
  | some digits =>
      have behind : ((exponent.map Exponent.written).getD [] ++ rest).head?.any Char.isDigit = false :=
        tail_stop none exponent sound rest stop
      simp only [Option.map_some, Option.getD_some, List.cons_append, readFraction,
        digits_read digits _ (digits' digits rfl) behind]
      exact number_end_read negative _ exponent sound _ rest stop

def Literal.outcome (l : Literal) : Except Fault Number :=
  completed l.negative (l.whole.foldl .whole .none) l.fraction l.exponent

theorem read_unsigned_sound (negative : Bool) (cs rest : List Char) (n : Number)
    (read : readUnsigned negative cs = .ok (n, rest)) :
    ∃ l : Literal, l.Sound ∧ l.negative = negative ∧
      (if negative then ['-'] else []) ++ cs = l.written ++ rest ∧ l.outcome = .ok n := by
  unfold readUnsigned at read
  split at read
  · rename_i behind
    split at read
    · cases read
    obtain ⟨fraction, exponent, digits, sound, rfl, value⟩ :=
      read_fraction_sound negative .none behind rest n read
    refine ⟨⟨negative, ['0'], fraction, exponent⟩, ⟨⟨by simp, by simp⟩, .inl rfl, digits, sound⟩, rfl,
      by simp [Literal.written], value⟩
  · rename_i nonzero
    obtain ⟨⟨whole, left⟩, taken, read⟩ := bind_ok _ _ _ read
    obtain ⟨split, whole'⟩ := read_digits_sound cs whole left taken
    obtain ⟨fraction, exponent, digits, sound, rfl, value⟩ :=
      read_fraction_sound negative _ left rest n read
    refine ⟨⟨negative, whole, fraction, exponent⟩, ⟨whole', .inr ?_, digits, sound⟩, rfl,
      by simp [Literal.written, split], value⟩
    intro leading
    obtain ⟨more, rfl⟩ := List.head?_eq_some_iff.mp leading
    exact nonzero _ split

theorem read_number_sound (cs rest : List Char) (n : Number) (read : readNumber cs = .ok (n, rest)) :
    ∃ l : Literal, l.Sound ∧ cs = l.written ++ rest ∧ l.outcome = .ok n := by
  by_cases minus : cs.head? = some '-'
  · obtain ⟨cs, rfl⟩ := List.head?_eq_some_iff.mp minus
    rw [read_number_negative] at read
    obtain ⟨l, sound, _, split, value⟩ := read_unsigned_sound true cs rest n read
    exact ⟨l, sound, split, value⟩
  · rw [read_number_positive cs minus] at read
    obtain ⟨l, sound, _, split, value⟩ := read_unsigned_sound false cs rest n read
    exact ⟨l, sound, split, value⟩

theorem unsigned_read (l : Literal) (sound : l.Sound) (rest : List Char)
    (stop : rest.head?.any goesOn = false) :
    readUnsigned l.negative
      (l.whole ++ ((l.fraction.map ('.' :: ·)).getD [] ++
        ((l.exponent.map Exponent.written).getD [] ++ rest))) =
      l.outcome.map fun n => (n, rest) := by
  have behind := tail_stop l.fraction l.exponent sound.exponent rest stop
  have value (s : Significand) :=
    fraction_read l.negative s l.fraction l.exponent sound.fraction sound.exponent rest stop
  rcases sound.leading with zero | nonzero
  · have outcome : l.outcome = completed l.negative .none l.fraction l.exponent := by
      rw [Literal.outcome, zero]
      rfl
    rw [zero, outcome, ← value]
    simp only [List.cons_append, List.nil_append, readUnsigned, behind]
    rfl
  · have started : ∀ tail, (l.whole ++ tail).head? ≠ some '0' := by
      intro tail
      cases whole : l.whole with
      | nil => exact absurd whole sound.whole.1
      | cons c digits => simpa [whole] using nonzero
    unfold readUnsigned
    split
    · rename_i same
      exact absurd (congrArg List.head? same) (started _)
    · rw [digits_read l.whole _ sound.whole behind]
      exact value _

theorem number_read (l : Literal) (sound : l.Sound) (rest : List Char) (ends : Ends rest) :
    readNumber (l.written ++ rest) = l.outcome.map fun n => (n, rest) := by
  have unsigned := unsigned_read l sound rest (ends_stop rest ends)
  cases sign : l.negative with
  | true =>
      rw [sign] at unsigned
      simpa [Literal.written, sign, List.append_assoc, read_number_negative] using unsigned
  | false =>
      have positive : (l.written ++ rest).head? ≠ some '-' := by
        obtain ⟨d, ds, whole, _, minus⟩ := digits_not_sign l.whole sound.whole
        simpa [Literal.written, sign, whole] using minus
      rw [sign] at unsigned
      rw [read_number_positive _ positive]
      simpa [Literal.written, sign, List.append_assoc] using unsigned

theorem digit_value (c : Char) (digit : c.isDigit = true) : digitValue c = c.toNat - '0'.toNat := by
  have bounds := Char.isDigit_iff_toNat.mp digit
  have low : '0' ≤ c := UInt32.le_iff_toNat_le.mpr bounds.1
  have high : c ≤ '9' := UInt32.le_iff_toNat_le.mpr bounds.2
  have zero : '0'.toNat = 48 := rfl
  have nine : '9'.toNat = 57 := rfl
  have small : c.toNat - '0'.toNat < 10 := by omega
  unfold digitValue Text.digit?
  simp only [low, high, decide_true, Bool.and_self, if_true, small]
  rfl

theorem takes_iff (s : Significand) (c : Char) : s.takes c = true ↔
    10 * s.value + digitValue c ≤ 18446744073709551615 ∧ s.full = false := by
  have bound : Nat.pow 2 64 = 18446744073709551616 := rfl
  rw [Significand.takes, bound, Bool.and_eq_true, decide_eq_true_iff, Bool.not_eq_true']
  exact and_congr_left' Nat.lt_succ_iff

-- The digits in front of the point fit into 64 bits, or one of them was left out.
theorem whole_digits (digits : List Char) (sound : ∀ c ∈ digits, c.isDigit = true) :
    (Nat.ofDigitChars 10 digits 0 ≤ 18446744073709551615 →
      digits.foldl Significand.whole .none = ⟨Nat.ofDigitChars 10 digits 0, 0, false⟩) ∧
    (18446744073709551615 < Nat.ofDigitChars 10 digits 0 →
      (digits.foldl Significand.whole .none).full = true) := by
  induction digits using List.reverseRecOn with
  | nil => exact ⟨fun _ => rfl, fun large => absurd large (by decide)⟩
  | append_singleton digits c ih =>
      obtain ⟨fits, overflows⟩ := ih fun d member => sound d (List.mem_append_left _ member)
      have digit := digit_value c (sound c (by simp))
      have value : Nat.ofDigitChars 10 (digits ++ [c]) 0 =
          10 * Nat.ofDigitChars 10 digits 0 + digitValue c := by
        rw [Nat.ofDigitChars_append, Nat.ofDigitChars_cons, Nat.ofDigitChars_nil, digit]
      rw [value, List.foldl_append, List.foldl_cons, List.foldl_nil, Significand.whole]
      by_cases small : Nat.ofDigitChars 10 digits 0 ≤ 18446744073709551615
      · rw [fits small]
        constructor
        · intro fit
          rw [if_pos ((takes_iff _ c).mpr ⟨fit, rfl⟩)]
        · intro large
          rw [if_neg fun takes => absurd ((takes_iff _ c).mp takes).1 (Nat.not_le.mpr large)]
      · have full := overflows (Nat.not_le.mp small)
        refine ⟨fun fit => absurd fit (by omega), fun _ => ?_⟩
        rw [if_neg fun takes => by rw [((takes_iff _ c).mp takes).2] at full; cases full]

theorem of_decimal_ok (negative : Bool) (s : Significand) (power : Int) (n : Number) :
    Number.ofDecimal negative s power = .ok n ↔
      (Double.ofDecimal? negative s.value (s.exponent + power)).map .double = some n := by
  unfold Number.ofDecimal
  cases Double.ofDecimal? negative s.value (s.exponent + power) <;> simp

theorem whole_outcome (l : Literal) (sound : l.Sound) (fraction : l.fraction = none)
    (exponent : l.exponent = none) (n : Number) :
    Number.ofWhole l.negative l.significand = .ok n ↔ l.number? = some n := by
  obtain ⟨fits, overflows⟩ := whole_digits l.whole sound.whole.2
  have folded : l.significand = l.whole.foldl .whole .none := by simp [Literal.significand, fraction]
  have double : l.double? = Double.ofDecimal? l.negative l.significand.value
      (l.significand.exponent + 0) := by simp [Literal.double?, exponent]
  have bound : Nat.pow 2 63 = 9223372036854775808 := rfl
  rw [← folded] at fits overflows
  unfold Literal.number? Literal.integer? Number.ofWhole Literal.magnitude
  rw [fraction, exponent, double, bound]
  generalize Nat.ofDigitChars 10 l.whole 0 = magnitude at fits overflows ⊢
  by_cases small : magnitude ≤ 18446744073709551615
  · rw [fits small]
    cases l.negative with
    | false => simp [small]
    | true =>
        by_cases fit : 0 < magnitude ∧ magnitude ≤ 9223372036854775808
        · simp [fit, Nat.ne_of_gt fit.1, Nat.not_lt.mpr fit.2]
        · have double : magnitude = 0 ∨ 9223372036854775808 < magnitude := by omega
          simp [fit, double, of_decimal_ok]
  · have full := overflows (Nat.not_le.mp small)
    have large : ¬ magnitude ≤ 9223372036854775808 := by omega
    rw [full]
    cases l.negative <;> simp [small, large, of_decimal_ok]

theorem outcome_number (l : Literal) (sound : l.Sound) (n : Number) :
    l.outcome = .ok n ↔ l.number? = some n := by
  cases fraction : l.fraction with
  | none =>
      cases exponent : l.exponent with
      | none =>
          have outcome : l.outcome = Number.ofWhole l.negative l.significand := by
            simp [Literal.outcome, completed, finished, Literal.significand, fraction, exponent]
          rw [outcome]
          exact whole_outcome l sound fraction exponent n
      | some e =>
          simp [Literal.outcome, completed, finished, Literal.number?, Literal.integer?, Literal.double?,
            Literal.significand, fraction, exponent, of_decimal_ok]
  | some digits =>
      cases exponent : l.exponent <;>
        simp [Literal.outcome, completed, finished, Literal.number?, Literal.integer?, Literal.double?,
          Literal.significand, fraction, exponent, of_decimal_ok]

theorem number_sound (cs rest : List Char) (n : Number) (read : readNumber cs = .ok (n, rest)) :
    ∃ l : Literal, l.Sound ∧ cs = l.written ++ rest ∧ l.number? = some n := by
  obtain ⟨l, sound, split, value⟩ := read_number_sound cs rest n read
  exact ⟨l, sound, split, (outcome_number l sound n).mp value⟩

theorem number_complete (l : Literal) (sound : l.Sound) (n : Number) (value : l.number? = some n)
    (rest : List Char) (ends : Ends rest) : readNumber (l.written ++ rest) = .ok (n, rest) := by
  rw [number_read l sound rest ends, (outcome_number l sound n).mpr value]
  rfl

end MarkdownServer.Json
