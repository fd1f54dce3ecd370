import Mathlib.Data.Nat.Digits.Defs
import Mathlib.Data.String.Basic
import MarkdownServer.Json.Printer
/- How many bytes a text takes inside of JSON. Escapes double it at most, but for the control characters
   that have no escape of their own: those are written with their number, in six bytes each. -/
set_option autoImplicit false

namespace MarkdownServer.Json

open String (utf8Len)

theorem plain_size (cs : List Char) (plain : ∀ c ∈ cs, c.utf8Size = 1) : utf8Len cs = cs.length := by
  induction cs with
  | nil => rfl
  | cons c cs ih =>
      obtain ⟨first, rest⟩ := List.forall_mem_cons.mp plain
      rw [String.utf8Len_cons, List.length_cons, ih rest, first]

def isUnnamed (c : Char) : Bool :=
  c.toNat < 32 && !(c == '\x08' || c == '\t' || c == '\n' || c == '\x0c' || c == '\r')

def unnamed (s : String) : Nat := s.toList.countP isUnnamed

theorem unnamed_char_size (c : Char) (control : isUnnamed c = true) : c.utf8Size = 1 := by
  simp only [isUnnamed, Bool.and_eq_true, decide_eq_true_eq] at control
  have low : c.toNat ≤ 127 := by omega
  exact Char.utf8Size_eq_one_iff.mpr (UInt32.le_iff_toNat_le.mpr low)

theorem hex_digit_size (n : Nat) (small : n < 16) : (Nat.digitChar n).utf8Size = 1 := by
  revert n
  decide

inductive Escaped (c : Char) : List Char → Prop where
  | named (name : Char) (plain : name.utf8Size = 1) (other : isUnnamed c = false) :
      Escaped c ['\\', name]
  | numbered (high low : Char) (wide : high.utf8Size = 1) (narrow : low.utf8Size = 1)
      (control : isUnnamed c = true) : Escaped c ['\\', 'u', '0', '0', high, low]
  | itself (other : isUnnamed c = false) : Escaped c [c]

theorem escape_char_escaped (c : Char) : Escaped c (escapeChar c) := by
  have named (d name : Char) (plain : name.utf8Size = 1) (other : isUnnamed d = false)
      (written : escapeChar d = ['\\', name]) : Escaped d (escapeChar d) :=
    written ▸ .named name plain other
  by_cases quote : c = '"'
  · exact quote ▸ named '"' '"' (by decide) (by decide) (by decide)
  by_cases backslash : c = '\\'
  · exact backslash ▸ named '\\' '\\' (by decide) (by decide) (by decide)
  by_cases backspace : c = '\x08'
  · exact backspace ▸ named '\x08' 'b' (by decide) (by decide) (by decide)
  by_cases tab : c = '\t'
  · exact tab ▸ named '\t' 't' (by decide) (by decide) (by decide)
  by_cases line : c = '\n'
  · exact line ▸ named '\n' 'n' (by decide) (by decide) (by decide)
  by_cases form : c = '\x0c'
  · exact form ▸ named '\x0c' 'f' (by decide) (by decide) (by decide)
  by_cases carriage : c = '\r'
  · exact carriage ▸ named '\r' 'r' (by decide) (by decide) (by decide)
  by_cases low : c.toNat < 32
  · simp only [escapeChar, if_neg quote, if_neg backslash, if_neg backspace, if_neg tab, if_neg line,
      if_neg form, if_neg carriage, if_pos low]
    exact .numbered _ _ (hex_digit_size _ (by omega)) (hex_digit_size _ (by omega))
      (by simp [isUnnamed, low, backspace, tab, line, form, carriage])
  · simp only [escapeChar, if_neg quote, if_neg backslash, if_neg backspace, if_neg tab, if_neg line,
      if_neg form, if_neg carriage, if_neg low]
    exact .itself (by simp [isUnnamed, low])

theorem escape_unnamed_size (c : Char) (control : isUnnamed c = true) : utf8Len (escapeChar c) = 6 := by
  have escaped := escape_char_escaped c
  generalize escapeChar c = written at escaped ⊢
  cases escaped with
  | named name plain other => rw [control] at other; cases other
  | itself other => rw [control] at other; cases other
  | numbered high low wide narrow =>
      simp only [String.utf8Len_cons, String.utf8Len_nil, wide, narrow]
      decide

theorem escape_size_le (c : Char) (other : isUnnamed c = false) :
    utf8Len (escapeChar c) ≤ 2 * c.utf8Size := by
  have positive := c.utf8Size_pos
  have escaped := escape_char_escaped c
  generalize escapeChar c = written at escaped ⊢
  cases escaped with
  | named name plain =>
      have backslash : ('\\' : Char).utf8Size = 1 := by decide
      simp only [String.utf8Len_cons, String.utf8Len_nil, plain, backslash]
      omega
  | numbered high low wide narrow control => rw [control] at other; cases other
  | itself =>
      simp only [String.utf8Len_cons, String.utf8Len_nil]
      omega

theorem escaped_size_le (cs : List Char) :
    utf8Len (cs.flatMap escapeChar) ≤ 2 * utf8Len cs + 4 * cs.countP isUnnamed := by
  induction cs with
  | nil => simp
  | cons c cs ih =>
      have positive := c.utf8Size_pos
      rw [List.flatMap_cons, String.utf8Len_append, String.utf8Len_cons]
      cases control : isUnnamed c with
      | true =>
          rw [escape_unnamed_size c control, List.countP_cons_of_pos control]
          omega
      | false =>
          have own := escape_size_le c control
          rw [List.countP_cons_of_neg (by simp [control])]
          omega

theorem quoted_size (s : String) :
    utf8Len (writeText s) = utf8Len (s.toList.flatMap escapeChar) + 2 := by
  simp only [writeText, String.utf8Len_cons, String.utf8Len_append, String.utf8Len_nil]
  have quote : ('"' : Char).utf8Size = 1 := by decide
  omega

theorem text_size_le (s : String) :
    utf8Len (writeText s) ≤ 2 * s.utf8ByteSize + 4 * unnamed s + 2 := by
  have escaped := escaped_size_le s.toList
  rw [String.utf8Len_toList] at escaped
  rw [quoted_size]
  exact Nat.add_le_add_right escaped 2

theorem unnamed_le_size (s : String) : unnamed s ≤ s.utf8ByteSize := by
  have counted : ∀ cs : List Char, cs.countP isUnnamed ≤ utf8Len cs := by
    intro cs
    induction cs with
    | nil => simp
    | cons c cs ih =>
        have positive := c.utf8Size_pos
        rw [List.countP_cons, String.utf8Len_cons]
        split <;> omega
  rw [← String.utf8Len_toList]
  exact counted s.toList

theorem replicate_size (count : Nat) (c : Char) (control : isUnnamed c = true) :
    (String.ofList (List.replicate count c)).utf8ByteSize = count := by
  have plain := plain_size (List.replicate count c) fun d member =>
    (List.mem_replicate.mp member).2 ▸ unnamed_char_size c control
  rw [String.utf8ByteSize_ofList, plain, List.length_replicate]

theorem replicate_written_size (count : Nat) (c : Char) (control : isUnnamed c = true) :
    utf8Len (writeText (String.ofList (List.replicate count c))) = 6 * count + 2 := by
  rw [quoted_size, String.toList_ofList]
  congr 1
  induction count with
  | zero => rfl
  | succ count ih =>
      rw [List.replicate_succ, List.flatMap_cons, String.utf8Len_append, ih,
        escape_unnamed_size c control]
      omega

theorem digit_size (c : Char) (digit : c.isDigit = true) : c.utf8Size = 1 := by
  simp only [Char.isDigit, Bool.and_eq_true, decide_eq_true_eq] at digit
  exact Char.utf8Size_eq_one_iff.mpr (UInt32.le_trans digit.2 (by decide))

theorem natural_size (n digits : Nat) (positive : 0 < digits) (small : n < 10 ^ digits) :
    n.repr.utf8ByteSize ≤ digits := by
  have plain := plain_size (Nat.toDigits 10 n) fun c member =>
    digit_size c (Nat.isDigit_of_mem_toDigits (by decide) (by decide) member)
  rw [Nat.repr_eq_ofList_toDigits, String.utf8ByteSize_ofList, plain]
  exact Nat.toDigits_length 10 n digits positive small

theorem integer_size (i : Int) (low : -9223372036854775808 ≤ i) (high : i ≤ 9223372036854775807) :
    (toString i).utf8ByteSize ≤ 20 := by
  rw [Int.toString_eq_repr, Int.repr_eq_if]
  split
  · have digits := natural_size i.toNat 19 (by decide) (by omega)
    omega
  · have digits := natural_size (-i).toNat 19 (by decide) (by omega)
    have sign : ("-" : String).utf8ByteSize = 1 := by decide
    rw [String.utf8ByteSize_append, sign]
    omega

end MarkdownServer.Json
