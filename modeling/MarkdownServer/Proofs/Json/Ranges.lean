import MarkdownServer.Proofs.Json.Integers
import MarkdownServer.Proofs.Json.Records
/- The whole numbers of a text have 64 bits, however deep they stand in it. What each field of a record
   keeps when it is read from such a text, the record as a whole keeps. -/
set_option autoImplicit false

namespace MarkdownServer.Json

def InText (v : Value) : Prop := ∃ levels body, Written levels v body

theorem whole_in_text (text : String) (v : Value) (written : WrittenText v text.toList) : InText v := by
  generalize text.toList = cs at written
  obtain ⟨_, body, _, _, written, _⟩ := written
  exact ⟨deepest, body, written⟩

theorem listed_spelled {α : Type} (entry : α → List Char → Prop) (as : List α) (inside : List Char)
    (listed : Listed entry as inside) : ∀ a ∈ as, ∃ body, entry a body := by
  induction listed with
  | none => exact nofun
  | last a front body back before spelled behind =>
      exact List.forall_mem_cons.mpr ⟨⟨body, spelled⟩, nofun⟩
  | cons a b more front body back rest before spelled behind _ ih =>
      exact List.forall_mem_cons.mpr ⟨⟨body, spelled⟩, ih⟩

theorem items_in_text (items : List Value) (inText : InText (.array items)) : ∀ v ∈ items, InText v := by
  obtain ⟨levels, body, written⟩ := inText
  cases levels with
  | zero => cases written
  | succ levels =>
      cases written with
      | scalar _ _ spelled => cases spelled
      | array _ inside listed =>
          intro v member
          exact ⟨levels, listed_spelled _ items inside listed v member⟩

theorem members_in_text (members : List (String × Value)) (inText : InText (.object members)) :
    ∀ m ∈ members, InText m.2 := by
  obtain ⟨levels, body, written⟩ := inText
  cases levels with
  | zero => cases written
  | succ levels =>
      cases written with
      | scalar _ _ spelled => cases spelled
      | object _ inside listed =>
          intro m member
          obtain ⟨_, spelled⟩ := listed_spelled _ members inside listed m member
          cases spelled with
          | mk name v key behind before body named space space' written => exact ⟨levels, body, written⟩

theorem integer_in_text (i : Int) (inText : InText (.number (.integer i))) :
    -9223372036854775808 ≤ i ∧ i ≤ 18446744073709551615 := by
  obtain ⟨levels, body, written⟩ := inText
  cases levels with
  | zero => exact ((integer_spelled_iff i body).mp written).1
  | succ levels =>
      cases written with
      | scalar _ _ spelled => exact ((integer_spelled_iff i body).mp spelled).1

theorem size_in_text (v : Value) (expected : String) (n : Nat) (inText : InText v)
    (read : v.draft.asSize expected = .ok n) : n ≤ 18446744073709551615 := by
  rw [(as_size_iff v expected n).mp read] at inText
  have range := integer_in_text n inText
  omega

def RecordField.Keeps {σ : Type} (holds : σ → Prop) (field : RecordField σ) : Prop :=
  ∀ v record next, InText v → holds record → field.read v.draft record = .ok next → holds next

theorem of_keeps {σ α : Type} (holds : σ → Prop) (name : String) (read : Draft → Except Rejection α)
    (set : α → σ → σ)
    (sets : ∀ v a record, InText v → read v.draft = .ok a → holds record → holds (set a record)) :
    (RecordField.of name read set).Keeps holds := by
  intro v record next inText before taken
  obtain ⟨a, read, rfl⟩ := map_ok _ _ _ taken
  exact sets v a record inText read before

namespace Shape

variable {σ : Type} (shape : Shape σ) (holds : σ → Prop)
  (fields : ∀ field ∈ shape.fields, field.Keeps holds)
include fields

theorem members_keep (members : List (String × Value)) (inText : ∀ m ∈ members, InText m.2)
    (seen : List String) (record done : σ) (before : holds record)
    (read : shape.readMembers seen record (memberDrafts members) = .ok done) : holds done := by
  induction members generalizing seen record with
  | nil =>
      cases read
      exact before
  | cons m rest ih =>
      obtain ⟨name, v⟩ := m
      obtain ⟨_, field, next, ⟨⟩, found, _, taken, read⟩ :=
        (shape.read_members_cons seen record done _ _ _).mp read
      obtain ⟨first, others⟩ := List.forall_mem_cons.mp inText
      have kept := fields field (List.mem_of_find?_eq_some found) v record next first before taken
      exact ih others (name :: seen) next kept read

theorem items_keep (items : List Value) (inText : ∀ v ∈ items, InText v) (own : List (RecordField σ))
    (within : own ⊆ shape.fields) (record done : σ) (before : holds record)
    (read : readItems record none own (itemDrafts items) = .ok done) : holds done := by
  induction items generalizing own record with
  | nil =>
      cases own <;> cases read <;> exact before
  | cons v items ih =>
      cases own with
      | nil => cases read
      | cons field own =>
          obtain ⟨here, within⟩ := List.cons_subset.mp within
          obtain ⟨first, others⟩ := List.forall_mem_cons.mp inText
          rw [itemDrafts, readItems] at read
          split at read
          · cases read
          rename_i next taken
          exact ih others own within next (fields field here v record next first before taken) read

theorem read_keeps (start : holds shape.start) (v : Value) (inText : InText v) (done : σ)
    (read : shape.read v.draft = .ok done) : holds done := by
  cases v with
  | object members =>
      obtain ⟨record, taken, read⟩ := bind_ok _ _ _ read
      cases read
      exact shape.members_keep holds fields members (members_in_text members inText) [] _ _ start taken
  | array items =>
      exact shape.items_keep holds fields items (items_in_text items inText) shape.fields
        (List.Subset.refl _) _ _ start read
  | _ => exact absurd read (not_refused _ _ _)

end Shape
end MarkdownServer.Json
