import MarkdownServer.Proofs.Json.Records
/- Records part by part: the name of a member, what its value gives, and what holds if it is left out. An
   object is read into a record if every member is one of the parts, none is there twice, and each gives
   something. The record then has what the members give, wherever they stand, and the rest is standard. -/
set_option autoImplicit false

namespace MarkdownServer.Json

structure RecordPart (σ : Type) where
  name : String
  type : Type
  gives : Value → type → Prop
  standard : type
  get : σ → type

variable {σ : Type}

inductive RecordPart.Filled (part : RecordPart σ) (members : List (String × Value)) (start : part.type) :
    part.type → Prop where
  | told (v : Value) (a : part.type) (listed : (part.name, v) ∈ members) (gives : part.gives v a) :
      Filled part members start a
  | left (absent : part.name ∉ members.map Prod.fst) : Filled part members start start

structure Fit (parts : List (RecordPart σ)) (members : List (String × Value)) : Prop where
  once : (members.map Prod.fst).Nodup
  gives : ∀ m ∈ members, ∃ part ∈ parts, part.name = m.1 ∧ ∃ a, part.gives m.2 a

structure Holds (parts : List (RecordPart σ)) (members : List (String × Value)) (record : σ) :
    Prop where
  fit : Fit parts members
  filled : ∀ part ∈ parts, part.Filled members part.standard (part.get record)

structure Apt (parts : List (RecordPart σ)) : Prop where
  distinct : (parts.map RecordPart.name).Nodup
  single : ∀ part ∈ parts, ∀ v a b, part.gives v a → part.gives v b → a = b
  all : ∀ r s : σ, (∀ part ∈ parts, part.get r = part.get s) → r = s

theorem filled_unique (part : RecordPart σ) (members : List (String × Value))
    (once : (members.map Prod.fst).Nodup) (single : ∀ v a b, part.gives v a → part.gives v b → a = b)
    (start a b : part.type) (first : part.Filled members start a) (second : part.Filled members start b) :
    a = b := by
  cases first with
  | told v a listed gives =>
      cases second with
      | told w b listed' gives' =>
          cases List.inj_on_of_nodup_map once listed listed' rfl
          exact single v a b gives gives'
      | left absent => exact absurd (List.mem_map_of_mem listed) absent
  | left absent =>
      cases second with
      | told v b listed _ => exact absurd (List.mem_map_of_mem listed) absent
      | left => rfl

theorem holds_unique (parts : List (RecordPart σ)) (apt : Apt parts) (members : List (String × Value))
    (r s : σ) (first : Holds parts members r) (second : Holds parts members s) : r = s :=
  apt.all r s fun part listed =>
    filled_unique part members first.fit.once (apt.single part listed) _ _ _
      (first.filled part listed) (second.filled part listed)

theorem part_of_name (parts : List (RecordPart σ)) (apt : Apt parts) (part other : RecordPart σ)
    (listed : part ∈ parts) (listed' : other ∈ parts) (same : part.name = other.name) : part = other :=
  List.inj_on_of_nodup_map apt.distinct listed listed' same

theorem fit_gives (parts : List (RecordPart σ)) (apt : Apt parts) (members : List (String × Value))
    (fit : Fit parts members) (part : RecordPart σ) (listed : part ∈ parts) (v : Value)
    (told : (part.name, v) ∈ members) : ∃ a, part.gives v a := by
  obtain ⟨other, listed', same, given⟩ := fit.gives _ told
  cases part_of_name parts apt other part listed' listed same
  exact given

-- A shape with a field for each part, which reads just what the part gives and leaves all other parts
-- alone. Only the values that are shown are spoken of.
structure Describes (parts : List (RecordPart σ)) (shown : String → Value → Prop) (shape : Shape σ) :
    Prop where
  names : shape.fields.map RecordField.name = parts.map RecordPart.name
  start : ∀ part ∈ parts, part.get shape.start = part.standard
  own : ∀ part ∈ parts, ∃ field, shape.find? part.name = some field ∧ ∀ v, shown part.name v →
    ∀ record a, part.gives v a ↔ ∃ next, field.read v.draft record = .ok next ∧ part.get next = a
  other : ∀ field ∈ shape.fields, ∀ part ∈ parts, field.name ≠ part.name → ∀ draft record next,
    field.read draft record = .ok next → part.get next = part.get record

section
variable {parts : List (RecordPart σ)} {shown : String → Value → Prop} {shape : Shape σ}

theorem found_part (described : Describes parts shown shape) (name : String) (field : RecordField σ)
    (found : shape.find? name = some field) :
    field ∈ shape.fields ∧ field.name = name ∧ ∃ part ∈ parts, part.name = name := by
  have listed := List.mem_of_find?_eq_some found
  have same : field.name = name := by simpa using List.find?_some found
  refine ⟨listed, same, ?_⟩
  have named : name ∈ parts.map RecordPart.name := by
    rw [← described.names, ← same]
    exact List.mem_map_of_mem listed
  obtain ⟨part, listed', same'⟩ := List.mem_map.mp named
  exact ⟨part, listed', same'⟩

section
variable (described : Describes parts shown shape) (name : String) (v : Value) (visible : shown name v)
  (field : RecordField σ) (found : shape.find? name = some field) (record next : σ)
  (taken : field.read v.draft record = .ok next)
include described visible found taken

theorem member_gives (part : RecordPart σ) (listed : part ∈ parts) (same : part.name = name) :
    part.gives v (part.get next) := by
  subst same
  obtain ⟨own, found', reads⟩ := described.own part listed
  cases found.symm.trans found'
  exact (reads v visible record _).mpr ⟨next, taken, rfl⟩

theorem filled_cons (rest : List (String × Value)) (new : name ∉ rest.map Prod.fst) (part : RecordPart σ)
    (listed : part ∈ parts) (result : part.type) (filled : part.Filled rest (part.get next) result) :
    part.Filled ((name, v) :: rest) (part.get record) result := by
  by_cases same : part.name = name
  · have gives := member_gives described name v visible field found record next taken part listed same
    cases filled with
    | told w _ again => exact absurd (same ▸ List.mem_map_of_mem again) new
    | left => exact .told v _ (same ▸ List.mem_cons_self) gives
  · obtain ⟨known, named, _⟩ := found_part described name field found
    have apart : field.name ≠ part.name := fun h => same (h.symm.trans named)
    rw [described.other field known part listed apart v.draft record next taken] at filled
    cases filled with
    | told w _ again gives => exact .told w _ (List.mem_cons_of_mem _ again) gives
    | left absent => exact .left (by simpa [same] using absent)

end

-- By induction on the members. A name that was read joins those that are seen, so that no later member
-- has it.
theorem read_members_filled (described : Describes parts shown shape) (members : List (String × Value))
    (visible : ∀ m ∈ members, shown m.1 m.2) (seen : List String) (record done : σ)
    (read : shape.readMembers seen record (memberDrafts members) = .ok done) :
    Fit parts members ∧ (∀ name ∈ members.map Prod.fst, name ∉ seen) ∧
      ∀ part ∈ parts, part.Filled members (part.get record) (part.get done) := by
  induction members generalizing seen record with
  | nil =>
      cases read
      exact ⟨⟨List.nodup_nil, nofun⟩, nofun, fun part _ => .left List.not_mem_nil⟩
  | cons m rest ih =>
      obtain ⟨name, v⟩ := m
      obtain ⟨_, field, next, ⟨⟩, found, fresh, taken, read⟩ :=
        (shape.read_members_cons seen record done _ _ _).mp read
      obtain ⟨first, visible⟩ := List.forall_mem_cons.mp visible
      obtain ⟨fit, unseen, filled⟩ := ih visible (name :: seen) next read
      have new : name ∉ rest.map Prod.fst := fun again => unseen name again List.mem_cons_self
      refine ⟨⟨List.nodup_cons.mpr ⟨new, fit.once⟩, List.forall_mem_cons.mpr ⟨?_, fit.gives⟩⟩,
        List.forall_mem_cons.mpr ⟨fresh, fun other later before => ?_⟩, fun part listed => ?_⟩
      · obtain ⟨_, _, part, listed, same⟩ := found_part described name field found
        exact ⟨part, listed, same, _,
          member_gives described name v first field found record next taken part listed same⟩
      · exact unseen other later (List.mem_cons_of_mem _ before)
      · exact filled_cons described name v first field found record next taken rest new part listed _
          (filled part listed)

theorem read_members_taken (described : Describes parts shown shape) (members : List (String × Value))
    (visible : ∀ m ∈ members, shown m.1 m.2) (fit : Fit parts members) (seen : List String)
    (unseen : ∀ name ∈ members.map Prod.fst, name ∉ seen) (record : σ) :
    ∃ done, shape.readMembers seen record (memberDrafts members) = .ok done := by
  induction members generalizing seen record with
  | nil => exact ⟨record, rfl⟩
  | cons m rest ih =>
      obtain ⟨name, v⟩ := m
      obtain ⟨once, gives⟩ := fit
      obtain ⟨new, fewer⟩ := List.nodup_cons.mp once
      obtain ⟨part, listed, rfl, a, given⟩ := gives (name, v) List.mem_cons_self
      obtain ⟨field, found, reads⟩ := described.own part listed
      obtain ⟨first, visible⟩ := List.forall_mem_cons.mp visible
      obtain ⟨next, taken, _⟩ := (reads v first record a).mp given
      have others : ∀ name ∈ rest.map Prod.fst, name ∉ part.name :: seen := by
        intro name later
        refine List.not_mem_cons_of_ne_of_not_mem ?_ (unseen name (List.mem_cons_of_mem _ later))
        rintro rfl
        exact new later
      obtain ⟨done, read⟩ := ih visible
        ⟨fewer, fun m later => gives m (List.mem_cons_of_mem _ later)⟩ (part.name :: seen) others next
      exact ⟨done, (shape.read_members_cons seen record done _ _ _).mpr
        ⟨part.name, field, next, rfl, found, unseen _ List.mem_cons_self, taken, read⟩⟩

theorem read_object (members : List (String × Value)) :
    shape.read (Value.object members).draft = shape.readMembers [] shape.start (memberDrafts members) := by
  rw [Value.draft, Shape.read]
  cases shape.readMembers [] shape.start (memberDrafts members) <;> rfl

theorem object_fit_iff (described : Describes parts shown shape) (members : List (String × Value))
    (visible : ∀ m ∈ members, shown m.1 m.2) :
    (∃ record, shape.read (Value.object members).draft = .ok record) ↔ Fit parts members := by
  rw [read_object]
  constructor
  · rintro ⟨record, read⟩
    exact (read_members_filled described members visible [] shape.start record read).1
  · exact fun fit => read_members_taken described members visible fit [] (by simp) shape.start

theorem object_read_iff (described : Describes parts shown shape) (apt : Apt parts)
    (members : List (String × Value)) (visible : ∀ m ∈ members, shown m.1 m.2) (record : σ) :
    shape.read (Value.object members).draft = .ok record ↔ Holds parts members record := by
  have sound (done : σ) (read : shape.read (Value.object members).draft = .ok done) :
      Holds parts members done := by
    rw [read_object] at read
    obtain ⟨fit, _, filled⟩ := read_members_filled described members visible [] shape.start done read
    exact ⟨fit, fun part listed => described.start part listed ▸ filled part listed⟩
  constructor
  · exact sound record
  · intro holds
    obtain ⟨done, read⟩ := (object_fit_iff described members visible).mpr holds.fit
    rw [read, holds_unique parts apt members done record (sound done read) holds]

end

theorem of_own {α : Type} (name : String) (read : Draft → Except Rejection α) (set : α → σ → σ)
    (get : σ → α) (kept : ∀ a record, get (set a record) = a) (gives : Value → α → Prop) (v : Value)
    (reads : ∀ a, gives v a ↔ read v.draft = .ok a) (record : σ) (a : α) :
    gives v a ↔
      ∃ next, (RecordField.of name read set).read v.draft record = .ok next ∧ get next = a := by
  rw [reads]
  constructor
  · intro taken
    exact ⟨set a record, congrArg (Except.map _) taken, kept a record⟩
  · rintro ⟨next, taken, rfl⟩
    obtain ⟨b, read, rfl⟩ := map_ok _ _ _ taken
    rw [kept]
    exact read

theorem of_other {α β : Type} (name : String) (read : Draft → Except Rejection α) (set : α → σ → σ)
    (get : σ → β) (apart : ∀ a record, get (set a record) = get record) (draft : Draft) (record next : σ)
    (taken : (RecordField.of name read set).read draft record = .ok next) : get next = get record := by
  obtain ⟨a, _, rfl⟩ := map_ok _ _ _ taken
  exact apart a record

theorem single_of_read {α : Type} (read : Draft → Except Rejection α) (gives : Value → α → Prop)
    (reads : ∀ v a, gives v a ↔ read v.draft = .ok a) (v : Value) (a b : α) (first : gives v a)
    (second : gives v b) : a = b :=
  Except.ok.inj (((reads v a).mp first).symm.trans ((reads v b).mp second))

inductive Edit (parts : List (RecordPart σ)) :
    List (String × Value) → List (String × Value) → Prop where
  | moved (members others : List (String × Value)) (same : members.Perm others) : Edit parts members others
  | told (members : List (String × Value)) (part : RecordPart σ) (listed : part ∈ parts) (v : Value)
      (standard : part.gives v part.standard) (absent : part.name ∉ members.map Prod.fst) :
      Edit parts members ((part.name, v) :: members)

theorem filled_moved (part : RecordPart σ) (members others : List (String × Value))
    (same : members.Perm others) (start a : part.type) (filled : part.Filled members start a) :
    part.Filled others start a := by
  cases filled with
  | told v _ listed gives => exact .told v a (same.mem_iff.mp listed) gives
  | left absent => exact .left fun listed => absent ((same.map Prod.fst).mem_iff.mpr listed)

theorem holds_moved (parts : List (RecordPart σ)) (members others : List (String × Value))
    (same : members.Perm others) (record : σ) (holds : Holds parts members record) :
    Holds parts others record where
  fit.once := (same.map Prod.fst).nodup_iff.mp holds.fit.once
  fit.gives m member := holds.fit.gives m (same.mem_iff.mpr member)
  filled part listed := filled_moved part members others same _ _ (holds.filled part listed)

theorem holds_told (parts : List (RecordPart σ)) (apt : Apt parts) (members : List (String × Value))
    (part : RecordPart σ) (listed : part ∈ parts) (v : Value) (standard : part.gives v part.standard)
    (absent : part.name ∉ members.map Prod.fst) (record : σ) :
    Holds parts ((part.name, v) :: members) record ↔ Holds parts members record := by
  constructor
  · rintro ⟨⟨once, gives⟩, filled⟩
    refine ⟨⟨(List.nodup_cons.mp once).2, fun m later => gives m (List.mem_cons_of_mem _ later)⟩,
      fun other listed' => ?_⟩
    have here := filled other listed'
    generalize other.get record = a at here ⊢
    cases here with
    | told w _ told given =>
        rcases List.mem_cons.mp told with first | later
        · obtain ⟨same, rfl⟩ := Prod.ext_iff.mp first
          cases part_of_name parts apt other part listed' listed same
          cases apt.single part listed _ _ _ given standard
          exact .left absent
        · exact .told w a later given
    | left absent' => exact .left fun later => absent' (List.mem_cons_of_mem _ later)
  · rintro ⟨⟨once, gives⟩, filled⟩
    refine ⟨⟨List.nodup_cons.mpr ⟨absent, once⟩, ?_⟩, fun other listed' => ?_⟩
    · rintro m (_ | ⟨_, later⟩)
      · exact ⟨part, listed, rfl, _, standard⟩
      · exact gives m later
    · have here := filled other listed'
      generalize other.get record = a at here ⊢
      cases here with
      | told w _ later given => exact .told w a (List.mem_cons_of_mem _ later) given
      | left absent' =>
          by_cases same : other.name = part.name
          · cases part_of_name parts apt other part listed' listed same
            exact .told v _ List.mem_cons_self standard
          · exact .left (by simpa [same] using absent')

theorem edit_holds (parts : List (RecordPart σ)) (apt : Apt parts) (members others : List (String × Value))
    (edit : Edit parts members others) (record : σ) :
    Holds parts members record ↔ Holds parts others record := by
  cases edit with
  | moved _ same =>
      exact ⟨holds_moved parts _ _ same record, holds_moved parts _ _ same.symm record⟩
  | told part listed v standard absent =>
      exact (holds_told parts apt members part listed v standard absent record).symm

theorem stays_within (front back : List (String × Value)) (name : String) (v w : Value)
    (m : String × Value) (member : m ∈ front ++ (name, v) :: back) :
    m = (name, v) ∨ m ∈ front ++ (name, w) :: back := by
  simp only [List.mem_append, List.mem_cons] at member ⊢
  tauto

theorem holds_within (parts : List (RecordPart σ)) (front back : List (String × Value)) (name : String)
    (v w : Value) (same : ∀ part ∈ parts, part.name = name → ∀ a, part.gives v a → part.gives w a)
    (record : σ) (holds : Holds parts (front ++ (name, v) :: back) record) :
    Holds parts (front ++ (name, w) :: back) record := by
  have names : (front ++ (name, v) :: back).map Prod.fst = (front ++ (name, w) :: back).map Prod.fst := by
    simp
  obtain ⟨⟨once, gives⟩, filled⟩ := holds
  refine ⟨⟨names ▸ once, fun m member => ?_⟩, fun part listed => ?_⟩
  · rcases stays_within front back name w v m member with rfl | elsewhere
    · obtain ⟨part, listed, named, a, given⟩ := gives (name, v) (by simp)
      exact ⟨part, listed, named, a, same part listed named a given⟩
    · exact gives m elsewhere
  · have here := filled part listed
    generalize part.get record = a at here ⊢
    cases here with
    | told u _ told given =>
        rcases stays_within front back name v w _ told with first | elsewhere
        · obtain ⟨named, rfl⟩ := Prod.mk.inj first
          exact .told w a (by simp [named]) (same part listed named a given)
        · exact .told u a elsewhere given
    | left absent => exact .left (names ▸ absent)

theorem holds_within_iff (parts : List (RecordPart σ)) (apt : Apt parts) (part : RecordPart σ)
    (listed : part ∈ parts) (front back : List (String × Value)) (v w : Value)
    (same : ∀ a, part.gives v a ↔ part.gives w a) (record : σ) :
    Holds parts (front ++ (part.name, v) :: back) record ↔
      Holds parts (front ++ (part.name, w) :: back) record := by
  constructor
  · apply holds_within
    intro other listed' named
    cases part_of_name parts apt other part listed' listed named
    exact fun a => (same a).mp
  · apply holds_within
    intro other listed' named
    cases part_of_name parts apt other part listed' listed named
    exact fun a => (same a).mpr

end MarkdownServer.Json
