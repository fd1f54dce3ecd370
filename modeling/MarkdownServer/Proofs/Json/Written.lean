import MarkdownServer.Proofs.Json.Acceptance
/- Texts as trees. The tree of a text has the members of every object as they are written: in their order,
   and all of those of one name. The reader gives the draft of the tree. -/
set_option autoImplicit false

namespace MarkdownServer.Json

mutual
def Value.draft : Value → Draft
  | .null => .null
  | .boolean b => .boolean b
  | .number n => .number n
  | .text s => .text s
  | .array items => .array (itemDrafts items) none
  | .object members => .object (memberDrafts members) none

def itemDrafts : List Value → List Draft
  | [] => []
  | v :: items => v.draft :: itemDrafts items

def memberDrafts : List (String × Value) → List (Draft × Draft)
  | [] => []
  | (name, v) :: members => (.text name, v.draft) :: memberDrafts members
end

inductive Laid (inner : Value → List Char → Prop) : Value → List Char → Prop where
  | scalar (v : Value) (body : List Char) (spelled : ScalarSpelled v body) : Laid inner v body
  | array (items : List Value) (inside : List Char) (listed : Listed inner items inside) :
      Laid inner (.array items) ('[' :: inside ++ [']'])
  | object (members : List (String × Value)) (inside : List Char)
      (listed : Listed (MemberSpelled inner) members inside) :
      Laid inner (.object members) ('\x7b' :: inside ++ ['\x7d'])

def Written : Nat → Value → List Char → Prop
  | 0 => ScalarSpelled
  | levels + 1 => Laid (Written levels)

inductive WrittenText (v : Value) : List Char → Prop where
  | mk (front body back : List Char) (before : Blank front) (written : Written deepest v body)
      (behind : Blank back) : WrittenText v (front ++ body ++ back)

theorem listed_turned {α β : Type} (entry : α → List Char → Prop) (other : β → List Char → Prop)
    (turn : ∀ a body, entry a body → ∃ b, other b body) (as : List α) (inside : List Char)
    (listed : Listed entry as inside) : ∃ bs, (bs = [] ↔ as = []) ∧ Listed other bs inside := by
  induction listed with
  | none space blank => exact ⟨[], by simp, .none space blank⟩
  | last a front body back before spelled behind =>
      obtain ⟨b, spelled⟩ := turn a body spelled
      exact ⟨[b], by simp, .last b front body back before spelled behind⟩
  | cons a _ more front body back rest before spelled behind _ ih =>
      obtain ⟨b, spelled⟩ := turn a body spelled
      obtain ⟨bs, empty, others⟩ := ih
      cases bs with
      | nil => simp at empty
      | cons c bs =>
          exact ⟨b :: c :: bs, by simp,
            .cons b c bs front body back rest before spelled behind others⟩

theorem member_turned (inner other : Value → List Char → Prop)
    (turn : ∀ v body, inner v body → ∃ w, other w body) (m : String × Value) (body : List Char)
    (member : MemberSpelled inner m body) : ∃ n, MemberSpelled other n body := by
  cases member with
  | mk name v key behind before body named space space' spelled =>
      obtain ⟨w, spelled⟩ := turn v body spelled
      exact ⟨(name, w), .mk name w key behind before body named space space' spelled⟩

theorem written_spelled (levels : Nat) (v : Value) (body : List Char) (written : Written levels v body) :
    ∃ w, Spelled levels w body := by
  induction levels generalizing v body with
  | zero => exact ⟨v, written⟩
  | succ levels ih =>
      cases written with
      | scalar _ _ spelled => exact ⟨v, .scalar v body spelled⟩
      | array items inside listed =>
          obtain ⟨items, _, listed⟩ := listed_turned _ _ ih items inside listed
          exact ⟨_, .array items inside listed⟩
      | object members inside listed =>
          obtain ⟨members, _, listed⟩ :=
            listed_turned _ _ (member_turned _ _ ih) members inside listed
          exact ⟨_, .object members inside listed⟩

theorem spelled_written (levels : Nat) (v : Value) (body : List Char) (spelled : Spelled levels v body) :
    ∃ w, Written levels w body := by
  induction levels generalizing v body with
  | zero => exact ⟨v, spelled⟩
  | succ levels ih =>
      cases spelled with
      | scalar _ _ spelled => exact ⟨v, .scalar v body spelled⟩
      | array items inside listed =>
          obtain ⟨items, _, listed⟩ := listed_turned _ _ ih items inside listed
          exact ⟨_, .array items inside listed⟩
      | object members inside listed =>
          obtain ⟨members, _, listed⟩ :=
            listed_turned _ _ (member_turned _ _ ih) members inside listed
          exact ⟨_, .object members inside listed⟩

theorem written_text_iff (cs : List Char) : (∃ v, WrittenText v cs) ↔ ∃ v, JsonText v cs := by
  constructor
  · rintro ⟨v, front, body, back, before, written, behind⟩
    obtain ⟨w, spelled⟩ := written_spelled deepest v body written
    exact ⟨w, .mk front body back before spelled behind⟩
  · rintro ⟨v, front, body, back, before, spelled, behind⟩
    obtain ⟨w, written⟩ := spelled_written deepest v body spelled
    exact ⟨w, .mk front body back before written behind⟩

namespace Lister

def laidItems (levels : Nat) : Lister Value Draft :=
  { items levels with
    spelled := Written levels
    means := fun draft v => draft = v.draft }

def laidMembers (levels : Nat) : Lister (String × Value) (Draft × Draft) :=
  { members levels with
    spelled := MemberSpelled (Written levels)
    means := fun draft m => draft.1 = .text m.1 ∧ draft.2 = m.2.draft }

end Lister

theorem laid_items_sound (levels : Nat) : (Lister.laidItems levels).Sound :=
  { items_sound levels with
    start := fun v body written => by
      obtain ⟨w, spelled⟩ := written_spelled levels v body written
      exact (items_sound levels).start w body spelled }

theorem laid_members_sound (levels : Nat) : (Lister.laidMembers levels).Sound :=
  { members_sound levels with
    start := fun m body written => by
      obtain ⟨n, spelled⟩ := member_turned _ _ (written_spelled levels) m body written
      exact (members_sound levels).start n body spelled }

theorem item_drafts_of (drafts : List Draft) (items : List Value)
    (all : List.Forall₂ (fun draft v => draft = v.draft) drafts items) : drafts = itemDrafts items := by
  induction all with
  | nil => rfl
  | cons first _ ih => rw [itemDrafts, first, ih]

theorem member_drafts_of (drafts : List (Draft × Draft)) (members : List (String × Value))
    (all : List.Forall₂ (fun draft m => draft.1 = .text m.1 ∧ draft.2 = m.2.draft) drafts members) :
    drafts = memberDrafts members := by
  induction all with
  | nil => rfl
  | cons first _ ih => rw [memberDrafts, ← first.1, ← first.2, ih]

theorem scalar_draft (v : Value) (body : List Char) (spelled : ScalarSpelled v body) (draft : Draft)
    (means : Means draft v) : draft = v.draft := by
  unfold Means at means
  cases draft with
  | array items stop =>
      rw [Draft.value] at means
      obtain ⟨values, _, means⟩ := bind_ok _ _ _ means
      cases stop <;> cases means
      cases spelled
  | object members stop =>
      rw [Draft.value] at means
      obtain ⟨values, _, means⟩ := bind_ok _ _ _ means
      cases stop <;> cases means
      cases spelled
  | broken fault => cases means
  | _ => cases means; rfl

theorem written_taken (levels : Nat) :
    TakenAs (fun draft v => draft = v.draft) (Written levels) levels := by
  have scalar (levels : Nat) : TakenAs (fun draft v => draft = v.draft) ScalarSpelled levels := by
    intro v body spelled steps enough rest ends
    obtain ⟨draft, means, read⟩ := scalar_taken levels v body spelled steps enough rest ends
    exact ⟨draft, scalar_draft v body spelled draft means, read⟩
  induction levels with
  | zero => exact scalar 0
  | succ levels ih =>
      intro v body written steps enough rest ends
      cases written with
      | scalar _ _ spelled => exact scalar _ v body spelled steps enough rest ends
      | array items inside listed =>
          simp only [List.length_append, List.length_cons, List.length_nil] at enough
          obtain ⟨fewer, rfl⟩ : ∃ fewer, steps = fewer + 2 := ⟨steps - 2, by omega⟩
          obtain ⟨ds, all, read⟩ := Lister.listing_taken (laid_items_sound levels) (item_taken_as ih)
            items inside listed fewer (by omega) rest
          refine ⟨.array (itemDrafts items) none, rfl, ?_⟩
          rw [item_drafts_of ds items all] at read
          simp only [List.cons_append, List.append_assoc, List.nil_append, array_opened]
          simpa [Lister.laidItems, Lister.items, Listing.items] using read
      | object members inside listed =>
          simp only [List.length_append, List.length_cons, List.length_nil] at enough
          obtain ⟨fewer, rfl⟩ : ∃ fewer, steps = fewer + 2 := ⟨steps - 2, by omega⟩
          obtain ⟨ds, all, read⟩ := Lister.listing_taken (laid_members_sound levels)
            (member_taken_as ih) members inside listed fewer (by omega) rest
          refine ⟨.object (memberDrafts members) none, rfl, ?_⟩
          rw [member_drafts_of ds members all] at read
          simp only [List.cons_append, List.append_assoc, List.nil_append, object_opened]
          simpa [Lister.laidMembers, Lister.members, Listing.members] using read

theorem written_text_read (text : String) (v : Value) (written : WrittenText v text.toList) :
    Draft.read text = (v.draft, none) := by
  rw [Draft.read]
  generalize text.toList = cs at written
  obtain ⟨front, body, back, before, written, behind⟩ := written
  have ends : Ends back := by
    rw [← List.append_nil back]
    exact blank_ends back [] behind rfl
  obtain ⟨_, rfl, read⟩ := written_taken deepest v body written ((front ++ body ++ back).length + 1)
    (by simp; omega) back ends
  change readValue _ depthLimit _ = _ at read
  rw [← read_value_past _ _ front _ before, ← List.append_assoc] at read
  rw [read]
  dsimp only
  rw [skip_space_blank back behind]
  rfl

end MarkdownServer.Json
