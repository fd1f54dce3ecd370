import Mathlib.Data.List.Nodup
import MarkdownServer.Json.Record
import MarkdownServer.Proofs.Json.Written
/- Decoding into records. What is decoded is JSON, and a tree is decoded as what its values say. -/
set_option autoImplicit false

namespace MarkdownServer.Json

def Whole {α : Type} (read : Draft → Except Rejection α) : Prop :=
  ∀ draft a, read draft = .ok a → ∃ v, Means draft v

theorem not_refused {α : Type} (draft : Draft) (expected : String) (a : α) :
    draft.refuse expected ≠ .ok a := by
  cases draft <;> exact nofun

theorem as_text_whole : Whole Draft.asText := by
  intro draft s read
  cases draft with
  | text s => exact ⟨_, rfl⟩
  | _ => exact absurd read (not_refused _ _ _)

theorem as_optional_text_whole : Whole Draft.asOptionalText := by
  intro draft t read
  cases draft with
  | null => exact ⟨_, rfl⟩
  | text s => exact ⟨_, rfl⟩
  | _ => cases read

theorem as_size_whole (expected : String) : Whole (Draft.asSize expected) := by
  intro draft n read
  cases draft with
  | number m => exact ⟨_, rfl⟩
  | _ => exact absurd read (not_refused _ _ _)

theorem as_parsed_whole {α : Type} (parse? : String → Option α) (expected problem : String) :
    Whole (Draft.asParsed parse? expected problem) := by
  intro draft a read
  cases draft with
  | text s => exact ⟨_, rfl⟩
  | _ => exact absurd read (not_refused _ _ _)

section
variable {α : Type} (choices : List (String × α))

theorem only_name_iff (members : List (Draft × Draft)) (stop : Option Fault) (a : α) :
    Draft.asOnlyName choices members stop = .ok a ↔
      ∃ name, members = [(.text name, .null)] ∧ stop = none ∧ Draft.choose choices name = .ok a := by
  constructor
  · intro read
    cases members with
    | nil => cases stop with
      | none => cases read
      | some fault => cases fault <;> cases read
    | cons m rest =>
        obtain ⟨name, value⟩ := m
        rw [Draft.asOnlyName.eq_def] at read
        dsimp only at read
        cases name with
        | text s =>
            obtain ⟨choice, chosen, read⟩ := bind_ok _ _ _ read
            cases value with
            | null =>
                dsimp only at read
                split at read
                · cases read
                  exact ⟨s, rfl, rfl, chosen⟩
                · cases read
                · cases read
            | _ => cases read
        | _ =>
            obtain ⟨choice, refused, _⟩ := bind_ok _ _ _ read
            exact absurd refused (not_refused _ _ _)
  · rintro ⟨name, rfl, rfl, chosen⟩
    change (Draft.choose choices name >>= fun choice => pure () >>= fun _ => .ok choice) = .ok a
    rw [chosen]
    rfl

theorem as_choice_whole : Whole (Draft.asChoice choices) := by
  intro draft a read
  cases draft with
  | text s => exact ⟨_, rfl⟩
  | object members stop =>
      obtain ⟨name, rfl, rfl, _⟩ := (only_name_iff choices members stop a).mp read
      exact ⟨_, rfl⟩
  | _ => cases read

end

namespace Shape

variable {σ : Type} (shape : Shape σ)

theorem read_members_cons (seen : List String) (record done : σ) (name draft : Draft)
    (rest : List (Draft × Draft)) :
    shape.readMembers seen record ((name, draft) :: rest) = .ok done ↔
      ∃ known field next, name = .text known ∧ shape.find? known = some field ∧ known ∉ seen ∧
        field.read draft record = .ok next ∧ shape.readMembers (known :: seen) next rest = .ok done := by
  constructor
  · intro read
    cases name with
    | text known =>
        rw [Shape.readMembers] at read
        split at read
        · cases read
        rename_i field found
        split at read
        · cases read
        rename_i fresh
        split at read
        · cases read
        rename_i next taken
        exact ⟨known, field, next, rfl, found, by simpa using fresh, taken, read⟩
    | _ => cases draft <;> cases read
  · rintro ⟨known, field, next, rfl, found, fresh, taken, read⟩
    have new : seen.contains known = false := by simpa using fresh
    rw [Shape.readMembers, found]
    simp only [new, taken]
    exact read

section
variable (fields : ∀ field ∈ shape.fields, ∀ record, Whole fun draft => field.read draft record)
include fields

theorem members_whole (members : List (Draft × Draft)) (seen : List String) (record done : σ)
    (read : shape.readMembers seen record members = .ok done) (values : List (String × Value)) :
    ∃ all, memberValues values members = .ok all := by
  induction members generalizing seen record values with
  | nil => exact ⟨values, by rw [memberValues]⟩
  | cons m rest ih =>
      obtain ⟨name, draft⟩ := m
      obtain ⟨known, field, next, rfl, found, _, taken, read⟩ :=
        (shape.read_members_cons seen record done name draft rest).mp read
      obtain ⟨v, means⟩ := fields field (List.mem_of_find?_eq_some found) record draft next taken
      rw [memberValues.eq_def]
      dsimp only
      rw [means]
      exact ih _ _ read _

theorem items_whole (items : List Draft) (own : List (RecordField σ)) (within : own ⊆ shape.fields)
    (record done : σ) (stop : Option Fault) (read : readItems record stop own items = .ok done)
    (values : List Value) : stop = none ∧ ∃ all, itemValues values items = .ok all := by
  induction items generalizing own record values with
  | nil => cases own <;> cases stop <;> cases read <;> exact ⟨rfl, _, by rw [itemValues]⟩
  | cons item items ih =>
      cases own with
      | nil => cases read
      | cons field own =>
          obtain ⟨here, within⟩ := List.cons_subset.mp within
          rw [readItems] at read
          split at read
          · cases read
          rename_i next taken
          obtain ⟨v, means⟩ := fields field here record item next taken
          rw [itemValues, means]
          exact ih own within next read (v :: values)

theorem read_whole : Whole shape.read := by
  intro draft record read
  cases draft with
  | object members stop =>
      obtain ⟨done, taken, read⟩ := bind_ok _ _ _ read
      obtain ⟨all, values⟩ := shape.members_whole fields members [] shape.start done taken []
      cases stop with
      | some fault => cases read
      | none => exact ⟨.object all, by rw [Means, Draft.value, values]; rfl⟩
  | array items stop =>
      obtain ⟨rfl, all, values⟩ := shape.items_whole fields items shape.fields (List.Subset.refl _)
        shape.start record stop read []
      exact ⟨.array all, by rw [Means, Draft.value, values]; rfl⟩
  | _ => exact absurd read (not_refused _ _ _)

end

theorem of_whole {α : Type} (name : String) (read : Draft → Except Rejection α) (set : α → σ → σ)
    (whole : Whole read) (record : σ) :
    Whole fun draft => (RecordField.of name read set).read draft record := by
  intro draft next taken
  obtain ⟨a, read, _⟩ := map_ok _ _ _ taken
  exact whole draft a read

theorem read_text_written (whole : Whole shape.read) (text : String) (record : σ)
    (read : shape.readText text = .ok record) : ∃ v, WrittenText v text.toList := by
  unfold Shape.readText at read
  cases taken : Draft.read text with
  | mk draft trailing =>
      rw [taken] at read
      obtain ⟨done, decoded, read⟩ := bind_ok _ _ _ read
      obtain ⟨v, means⟩ := whole draft done decoded
      cases trailing with
      | some fault => cases read
      | none =>
          have value : Value.read text = .ok v := by
            unfold Value.read
            rw [taken]
            dsimp only
            rw [means]
            rfl
          exact (written_text_iff text.toList).mpr ⟨v, (value_read_iff text v).mp value⟩

theorem read_tree (text : String) (v : Value) (written : WrittenText v text.toList) :
    shape.readText text = shape.read v.draft := by
  unfold Shape.readText
  rw [written_text_read text v written]
  dsimp only
  cases shape.read v.draft <;> rfl

end Shape

section
variable (v : Value)

theorem as_text_iff (s : String) : v.draft.asText = .ok s ↔ v = .text s := by
  cases v <;> simp [Value.draft, Draft.asText, not_refused]

theorem as_optional_text_iff (t : Option String) :
    v.draft.asOptionalText = .ok t ↔ v = .null ∧ t = none ∨ ∃ s, v = .text s ∧ t = some s := by
  cases v with
  | null => simp [Value.draft, Draft.asOptionalText, eq_comm]
  | text s =>
      change Except.ok (some s) = .ok t ↔ _
      simp [eq_comm]
  | _ =>
      simp only [reduceCtorEq, false_and, exists_false, or_self, iff_false]
      exact nofun

theorem as_size_iff (expected : String) (n : Nat) :
    v.draft.asSize expected = .ok n ↔ v = .number (.integer n) := by
  cases v with
  | number m =>
      cases m with
      | integer i =>
          by_cases negative : i < 0
          · simp only [Value.draft, Draft.asSize, if_pos negative, Value.number.injEq,
              Number.integer.injEq, reduceCtorEq, false_iff]
            omega
          · simp only [Value.draft, Draft.asSize, if_neg negative, Except.ok.injEq, Value.number.injEq,
              Number.integer.injEq]
            omega
      | double x => simp [Value.draft, Draft.asSize, not_refused]
  | _ => simp [Value.draft, Draft.asSize, not_refused]

theorem as_parsed_iff {α : Type} (parse? : String → Option α) (expected problem : String) (a : α) :
    v.draft.asParsed parse? expected problem = .ok a ↔ ∃ s, v = .text s ∧ parse? s = some a := by
  cases v with
  | text s => cases parsed : parse? s <;> simp [Value.draft, Draft.asParsed, parsed]
  | _ => simp [Value.draft, Draft.asParsed, not_refused]

theorem choose_iff {α : Type} (choices : List (String × α)) (distinct : (choices.map Prod.fst).Nodup)
    (name : String) (a : α) : Draft.choose choices name = .ok a ↔ (name, a) ∈ choices := by
  rw [Draft.choose]
  cases found : choices.find? fun c => c.1 == name with
  | none =>
      have unknown := List.find?_eq_none.mp found
      simp only [reduceCtorEq, false_iff]
      exact fun listed => unknown _ listed (by simp)
  | some c =>
      have listed := List.mem_of_find?_eq_some found
      obtain rfl : c.1 = name := by simpa using List.find?_some found
      simp only [Except.ok.injEq]
      constructor
      · rintro rfl
        exact listed
      · intro listed'
        exact congrArg Prod.snd (List.inj_on_of_nodup_map distinct listed listed' rfl)

theorem draft_null : v.draft = .null ↔ v = .null := by
  cases v <;> simp [Value.draft]

theorem as_choice_iff {α : Type} (choices : List (String × α)) (a : α) :
    v.draft.asChoice choices = .ok a ↔
      ∃ name, (v = .text name ∨ v = .object [(name, .null)]) ∧ Draft.choose choices name = .ok a := by
  cases v with
  | text s => simp [Value.draft, Draft.asChoice]
  | object members =>
      simp only [Value.draft, Draft.asChoice, only_name_iff, true_and, reduceCtorEq, false_or,
        Value.object.injEq]
      refine exists_congr fun name => and_congr_left fun _ => ?_
      cases members with
      | nil => simp [memberDrafts]
      | cons m rest => cases rest <;> simp [memberDrafts, draft_null, Prod.ext_iff]
  | _ => simp [Value.draft, Draft.asChoice]

end
end MarkdownServer.Json
