import MarkdownServer.Proofs.Json.Decimals
import MarkdownServer.Proofs.Json.RoundTrip
/- Compact JSON as a grammar: no white space, the members of an object in their order, whole numbers by
   their digits and doubles by a decimal that is within half a unit of their last place. -/
set_option autoImplicit false

namespace MarkdownServer.Json

open Numeric (Double)

inductive Chained {α : Type} (entry : α → List Char → Prop) : List α → List Char → Prop where
  | none : Chained entry [] []
  | last (a : α) (body : List Char) (spelled : entry a body) : Chained entry [a] body
  | cons (a b : α) (more : List α) (body rest : List Char) (spelled : entry a body)
      (others : Chained entry (b :: more) rest) : Chained entry (a :: b :: more) (body ++ ',' :: rest)

inductive Named (inner : Value → List Char → Prop) : String × Value → List Char → Prop where
  | mk (name : String) (v : Value) (key body : List Char) (named : TextSpelled name.toList key)
      (spelled : inner v body) : Named inner (name, v) ('"' :: key ++ '"' :: ':' :: body)

structure Approximates (l : Literal) (x : Double) : Prop where
  sound : l.Sound
  inexact : l.fraction.isSome = true ∨ l.exponent.isSome = true
  sign : l.negative = x.negative
  near : Double.leastExponent ≤ x.exponent → |l.value - x.value| ≤ 2 ^ x.exponent / 2

inductive Packed : Value → List Char → Prop where
  | null : Packed .null "null".toList
  | yes : Packed (.boolean true) "true".toList
  | no : Packed (.boolean false) "false".toList
  | integer (i : Int) : Packed (.number (.integer i)) (toString i).toList
  | double (x : Double) (l : Literal) (near : Approximates l x) : Packed (.number (.double x)) l.written
  | text (s : String) (inside : List Char) (spelled : TextSpelled s.toList inside) :
      Packed (.text s) ('"' :: inside ++ ['"'])
  | array (items : List Value) (inside : List Char) (chained : Chained Packed items inside) :
      Packed (.array items) ('[' :: inside ++ [']'])
  | object (members : List (String × Value)) (inside : List Char)
      (chained : Chained (Named Packed) members inside) :
      Packed (.object members) ('\x7b' :: inside ++ ['\x7d'])

theorem double_approximated (x : Double) : ∃ l, Approximates l x ∧ l.written = writeDouble x := by
  have zero : x.shortest.coefficient = 0 → x.shortest.exponent = 0 := fun zero => by
    rw [x.shortest_positive zero]
  have sign : (Literal.ofDecimal x.negative x.shortest).negative = x.negative := by
    unfold Literal.ofDecimal
    dsimp only
    split_ifs <;> rfl
  refine ⟨_, ⟨decimal_literal_sound x.negative x.shortest zero, ?_, sign, fun least => ?_⟩,
    decimal_literal_written x⟩
  · unfold Literal.ofDecimal
    dsimp only
    split_ifs <;> simp
  · rw [Literal.value, Double.value, sign, decimal_literal_size]
    split
    · rw [neg_sub_neg, abs_sub_comm]
      exact x.shortest_near least
    · exact x.shortest_near least

theorem entries_chained {α : Type} (entry : α → List Char → Prop) (write : α → List Char)
    (more : List α → List Char) (nil : more [] = [])
    (cons : ∀ a as, more (a :: as) = ',' :: write a ++ more as) (a : α) (as : List α)
    (each : ∀ b ∈ a :: as, entry b (write b)) : Chained entry (a :: as) (write a ++ more as) := by
  induction as generalizing a with
  | nil =>
      rw [nil, List.append_nil]
      exact .last a _ (each a List.mem_cons_self)
  | cons b as ih =>
      have others := ih b fun c member => each c (List.mem_cons_of_mem a member)
      rw [cons]
      exact .cons a b as _ _ (each a List.mem_cons_self) others

theorem named_packed (m : String × Value) (packed : Packed m.2 m.2.writeCompact) :
    Named Packed m (writeCompactMember m) := by
  have named := Named.mk m.1 m.2 _ _ (escape_spelled m.1.toList) packed
  simpa [writeCompactMember, writeText] using named

mutual
theorem compact_packed (v : Value) : Packed v v.writeCompact := by
  cases v with
  | null => exact .null
  | boolean b =>
      cases b with
      | true => exact .yes
      | false => exact .no
  | number n =>
      cases n with
      | integer i => exact .integer i
      | double x =>
          obtain ⟨l, near, written⟩ := double_approximated x
          have packed := Packed.double x l near
          rwa [written] at packed
  | text s => exact .text s _ (escape_spelled s.toList)
  | array items =>
      have packed := items_packed items
      cases items with
      | nil => exact .array [] [] .none
      | cons v rest =>
          exact .array _ _
            (entries_chained Packed Value.writeCompact writeCompactItems rfl (fun _ _ => rfl) v rest packed)
  | object members =>
      have packed := members_packed members
      cases members with
      | nil => exact .object [] [] .none
      | cons m rest =>
          have chained := entries_chained (Named Packed) writeCompactMember writeCompactMembers rfl
            (fun m rest => by simpa using write_compact_members_cons m rest) m rest
            fun n member => named_packed n (packed n member)
          obtain ⟨name, v⟩ := m
          simpa [Value.writeCompact, writeCompactMember] using Packed.object _ _ chained

theorem items_packed (items : List Value) : ∀ v ∈ items, Packed v v.writeCompact := by
  cases items with
  | nil => exact List.forall_mem_nil _
  | cons v rest => exact List.forall_mem_cons.mpr ⟨compact_packed v, items_packed rest⟩

theorem members_packed (members : List (String × Value)) :
    ∀ m ∈ members, Packed m.2 m.2.writeCompact := by
  match members with
  | [] => exact List.forall_mem_nil _
  | (name, v) :: rest => exact List.forall_mem_cons.mpr ⟨compact_packed v, members_packed rest⟩
end

end MarkdownServer.Json
