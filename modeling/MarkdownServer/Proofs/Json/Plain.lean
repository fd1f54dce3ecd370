import Mathlib.Data.Nat.Digits.Defs
import MarkdownServer.Json.Printer
/- The compact form of a value keeps to one line: whatever its texts and names are, no control character
   is written as it is. -/
set_option autoImplicit false

namespace MarkdownServer.Json

def Plain (cs : List Char) : Prop := ∀ c ∈ cs, 0x20 ≤ c.toNat

instance (cs : List Char) : Decidable (Plain cs) :=
  decidable_of_iff ((cs.all fun c => decide (0x20 ≤ c.toNat)) = true) (by simp [Plain])

theorem plain_append (cs ds : List Char) : Plain (cs ++ ds) ↔ Plain cs ∧ Plain ds :=
  List.forall_mem_append

theorem plain_cons (c : Char) (cs : List Char) : Plain (c :: cs) ↔ 0x20 ≤ c.toNat ∧ Plain cs :=
  List.forall_mem_cons

theorem plain_nil : Plain [] := List.forall_mem_nil _

theorem plain_subset (cs ds : List Char) (subset : cs ⊆ ds) (plain : Plain ds) : Plain cs :=
  fun c member => plain c (subset member)

theorem hex_digit_plain (n : Nat) (small : n < 16) : 0x20 ≤ (Nat.digitChar n).toNat := by
  revert n
  decide

theorem escape_char_plain (c : Char) : Plain (escapeChar c) := by
  unfold escapeChar
  split
  · decide
  split
  · decide
  split
  · decide
  split
  · decide
  split
  · decide
  split
  · decide
  split
  · decide
  split
  · rename_i low
    have high := hex_digit_plain (c.toNat / 16) (by omega)
    have rest := hex_digit_plain (c.toNat % 16) (by omega)
    simp only [plain_cons, plain_nil, high, rest, and_true]
    decide
  · rename_i high
    rw [plain_cons]
    exact ⟨by omega, plain_nil⟩

theorem write_text_plain (s : String) : Plain (writeText s) := by
  have inside : Plain (s.toList.flatMap escapeChar) := by
    intro c member
    obtain ⟨d, _, written⟩ := List.mem_flatMap.mp member
    exact escape_char_plain d c written
  simp only [writeText, List.cons_append, plain_cons, plain_append, inside, plain_nil, and_true]
  decide

theorem digit_plain (c : Char) (digit : c.isDigit = true) : 0x20 ≤ c.toNat := by
  simp only [Char.isDigit, Bool.and_eq_true, decide_eq_true_eq] at digit
  exact Nat.le_trans (by decide) (UInt32.le_iff_toNat_le.mp digit.1)

theorem natural_plain (n : Nat) : Plain (toString n).toList := by
  intro c member
  rw [Nat.toString_eq_repr, Nat.repr_eq_ofList_toDigits, String.toList_ofList] at member
  exact digit_plain c (Nat.isDigit_of_mem_toDigits (by decide) (by decide) member)

theorem integer_plain (i : Int) : Plain (toString i).toList := by
  rw [Int.toString_eq_repr, Int.repr_eq_if]
  split
  · exact natural_plain i.toNat
  · rw [String.toList_append, plain_append]
    exact ⟨by decide, natural_plain (-i).toNat⟩

theorem zeros_plain (count : Nat) : Plain (List.replicate count '0') := by
  intro c member
  rw [(List.mem_replicate.mp member).2]
  decide

theorem magnitude_plain (x : Numeric.Double) : Plain (writeMagnitude x) := by
  have digits := natural_plain x.shortest.coefficient
  have front (count : Nat) := plain_subset _ _ (List.take_subset count _) digits
  have back (count : Nat) := plain_subset _ _ (List.drop_subset count _) digits
  unfold writeMagnitude
  split
  · decide
  dsimp only
  split
  · simp only [plain_append, front, natural_plain, true_and, and_true]
    constructor
    · split
      · exact plain_nil
      · rw [plain_cons]
        exact ⟨by decide, back 1⟩
    · split <;> decide
  split
  · simp only [plain_append, digits, zeros_plain, true_and]
    decide
  split
  · rw [plain_append, plain_cons]
    exact ⟨front _, by decide, back _⟩
  · simp only [plain_append, digits, zeros_plain, and_true]
    decide

theorem number_plain (n : Number) : Plain n.write := by
  cases n with
  | integer i => exact integer_plain i
  | double x =>
      rw [Number.write, writeDouble]
      split
      · rw [plain_cons]
        exact ⟨by decide, magnitude_plain x⟩
      · exact magnitude_plain x

mutual
theorem compact_plain (v : Value) : Plain v.writeCompact := by
  cases v with
  | null => decide
  | boolean b => cases b <;> decide
  | number n => exact number_plain n
  | text s => exact write_text_plain s
  | array items =>
      cases items with
      | nil => decide
      | cons v rest =>
          have first := compact_plain v
          have more := compact_items_plain rest
          simp only [Value.writeCompact, List.cons_append, plain_cons, plain_append, first, more, plain_nil,
            and_true, true_and]
          decide
  | object members =>
      cases members with
      | nil => decide
      | cons member rest =>
          obtain ⟨name, v⟩ := member
          have named := write_text_plain name
          have first := compact_plain v
          have more := compact_members_plain rest
          simp only [Value.writeCompact, List.cons_append, plain_cons, plain_append, named, first, more,
            plain_nil, and_true, true_and]
          decide

theorem compact_items_plain (items : List Value) : Plain (writeCompactItems items) := by
  cases items with
  | nil => exact plain_nil
  | cons v rest =>
      have first := compact_plain v
      have more := compact_items_plain rest
      simp only [writeCompactItems, List.cons_append, plain_cons, plain_append, first, more, and_true]
      decide

theorem compact_members_plain (members : List (String × Value)) : Plain (writeCompactMembers members) := by
  cases members with
  | nil => exact plain_nil
  | cons member rest =>
      obtain ⟨name, v⟩ := member
      have named := write_text_plain name
      have first := compact_plain v
      have more := compact_members_plain rest
      simp only [writeCompactMembers, List.cons_append, plain_cons, plain_append, named, first, more,
        and_true, true_and]
      decide
end

end MarkdownServer.Json
