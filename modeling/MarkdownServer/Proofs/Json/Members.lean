import Mathlib.Data.String.Basic
import MarkdownServer.Proofs.Json.Acceptance
/- The members of an object that a text spells. Of those of one name the last one is in the object,
   and they stand there in the order of their names. -/
set_option autoImplicit false

namespace MarkdownServer.Json

theorem lookup_cons (name : String) (m : String × Value) (members : List (String × Value)) :
    lookup? name (m :: members) = if m.1 = name then some m.2 else lookup? name members := by
  by_cases same : m.1 = name <;> simp [lookup?, same]

theorem lookup_insert (name other : String) (v : Value) (members : List (String × Value)) :
    lookup? name (insertMember other v members) =
      if other = name then some v else lookup? name members := by
  induction members with
  | nil => exact lookup_cons name (other, v) []
  | cons m members ih =>
      rw [insertMember]
      split
      · exact lookup_cons name (other, v) (m :: members)
      split
      · rename_i same
        rw [lookup_cons, lookup_cons, same]
        split <;> rfl
      · rename_i different
        rw [lookup_cons, lookup_cons, ih]
        grind

def latest? (name : String) (members : List (String × Value)) : Option Value :=
  lookup? name members.reverse

theorem lookup_gathered (name : String) (members : List (String × Value)) :
    lookup? name (members.foldl (fun done m => insertMember m.1 m.2 done) []) = latest? name members := by
  unfold latest?
  induction members using List.reverseRecOn with
  | nil => rfl
  | append_singleton members m ih =>
      rw [List.foldl_append, List.foldl_cons, List.foldl_nil, lookup_insert, ih, List.reverse_append,
        List.reverse_singleton, List.singleton_append, lookup_cons]

theorem insert_last (name : String) (v : Value) (members : List (String × Value))
    (before : ∀ m ∈ members, m.1 < name) : insertMember name v members = members ++ [(name, v)] := by
  induction members with
  | nil => rfl
  | cons m members ih =>
      obtain ⟨first, others⟩ := List.forall_mem_cons.mp before
      rw [insertMember, if_neg (lt_asymm first), if_neg first.ne', ih others, List.cons_append]

theorem of_members_ascending (members : List (String × Value))
    (ascending : members.Pairwise fun m n => m.1 < n.1) : Value.ofMembers members = .object members := by
  unfold Value.ofMembers
  congr 1
  induction members using List.reverseRecOn with
  | nil => rfl
  | append_singleton members m ih =>
      obtain ⟨earlier, _, last⟩ := List.pairwise_append.mp ascending
      rw [List.foldl_append, ih earlier, List.foldl_cons, List.foldl_nil]
      exact insert_last m.1 m.2 members fun n member => last n member m (List.mem_singleton_self m)

theorem sorted_items_map (items : List Value) : Value.sortedItems items = items.map Value.sorted := by
  induction items with
  | nil => rfl
  | cons v rest ih => rw [Value.sortedItems, ih, List.map_cons]

theorem sorted_members_map (members : List (String × Value)) :
    Value.sortedMembers members = members.map fun m => (m.1, m.2.sorted) := by
  induction members with
  | nil => rfl
  | cons m rest ih =>
      obtain ⟨name, v⟩ := m
      rw [Value.sortedMembers, ih, List.map_cons]

theorem sorted_object (members : List (String × Value))
    (ascending : members.Pairwise fun m n => m.1 < n.1) :
    (Value.object members).sorted = .object (members.map fun m => (m.1, m.2.sorted)) := by
  rw [Value.sorted, sorted_members_map]
  exact of_members_ascending _ (List.pairwise_map.mpr ascending)

inductive ObjectText (members : List (String × Value)) : List Char → Prop where
  | mk (front inside back : List Char) (before : Blank front)
      (listed : Listed (MemberSpelled (Spelled (deepest - 1))) members inside) (behind : Blank back) :
      ObjectText members (front ++ '\x7b' :: inside ++ '\x7d' :: back)

theorem object_text_read (line : String) (members : List (String × Value))
    (text : ObjectText members line.toList) : Value.read line = .ok (.ofMembers members) := by
  rw [value_read_iff]
  generalize line.toList = cs at text ⊢
  obtain ⟨front, inside, back, before, listed, behind⟩ := text
  have spelled : Spelled deepest (.ofMembers members) _ := Nested.object members inside listed
  have whole := JsonText.mk front _ back before spelled behind
  simpa using whole

theorem read_object_text (line : String) (gathered : List (String × Value))
    (read : Value.read line = .ok (.object gathered)) :
    ∃ members, ObjectText members line.toList ∧ ∀ name, lookup? name gathered = latest? name members := by
  rw [value_read_iff] at read
  generalize line.toList = cs at read ⊢
  obtain ⟨front, body, back, before, spelled, behind⟩ := read
  have nested : Nested (Spelled (deepest - 1)) (.object gathered) body := spelled
  generalize whole : Value.object gathered = v at nested
  cases nested with
  | scalar _ _ spelled => cases spelled <;> cases whole
  | array items inside => cases whole
  | object members inside listed =>
      refine ⟨members, ?_, fun name => ?_⟩
      · have text := ObjectText.mk front inside back before listed behind
        simpa using text
      · cases whole
        exact lookup_gathered name members

theorem spelled_unique (levels : Nat) (v w : Value) (body : List Char) (first : Spelled levels v body)
    (second : Spelled levels w body) : v = w := by
  obtain ⟨draft, means, read⟩ := value_taken levels v body first _ (Nat.lt_succ_self _) [] rfl
  obtain ⟨draft', means', read'⟩ := value_taken levels w body second _ (Nat.lt_succ_self _) [] rfl
  cases read.symm.trans read'
  exact Except.ok.inj (means.symm.trans means')

end MarkdownServer.Json
