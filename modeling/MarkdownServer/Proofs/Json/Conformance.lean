import MarkdownServer.Json.Schema
import MarkdownServer.Proofs.Json.Members
/- Which values conform to a schema that stands in a message as JSON, and what a schema that was
   declared by its type, its items or its properties asks for. -/
set_option autoImplicit false

namespace MarkdownServer.Json

def Value.kind : Value → String
  | .null => "null"
  | .boolean _ => "boolean"
  | .number _ => "number"
  | .text _ => "string"
  | .array _ => "array"
  | .object _ => "object"

def Value.items : Value → List Value
  | .array items => items
  | _ => []

def hasNames : Value → Value → Bool
  | .array names, v => !v.isObject || names.all fun name => name.text?.any fun s => (v.member? s).isSome
  | _, _ => false

mutual
def admits : Value → Value → Bool
  | .boolean b, _ => b
  | .object keywords, v => admitsAll keywords v
  | .null, _ => false
  | .number _, _ => false
  | .text _, _ => false
  | .array _, _ => false

-- Keywords that say nothing of the shape, such as descriptions, admit everything.
def admitsAll : List (String × Value) → Value → Bool
  | [], _ => true
  | (keyword, argument) :: rest, v =>
      (if keyword = "type" then argument.text? == some v.kind
        else if keyword = "required" then hasNames argument v
        else if keyword = "properties" then admitsProperties argument v
        else if keyword = "items" then v.items.all fun item => admits argument item
        else true) && admitsAll rest v

def admitsProperties : Value → Value → Bool
  | .object properties, v => admitsMembers properties v
  | .null, _ => false
  | .boolean _, _ => false
  | .number _, _ => false
  | .text _, _ => false
  | .array _, _ => false

def admitsMembers : List (String × Value) → Value → Bool
  | [], _ => true
  | (name, schema) :: rest, v => (v.member? name).all (fun w => admits schema w) && admitsMembers rest v
end

def demand (keyword : String × Value) (v : Value) : Bool :=
  admitsAll [keyword] v

theorem admits_all_iff (keywords : List (String × Value)) (v : Value) :
    admitsAll keywords v = true ↔ ∀ keyword ∈ keywords, demand keyword v = true := by
  induction keywords with
  | nil => simp [admitsAll]
  | cons keyword rest ih =>
      obtain ⟨name, argument⟩ := keyword
      simp only [admitsAll, demand, Bool.and_true, List.forall_mem_cons, Bool.and_eq_true]
      simp only [ih, demand]

theorem admits_members_iff (properties : List (String × Value)) (v : Value) :
    admitsMembers properties v = true ↔
      ∀ property ∈ properties, ∀ w, v.member? property.1 = some w → admits property.2 w = true := by
  induction properties with
  | nil => simp [admitsMembers]
  | cons property rest ih =>
      obtain ⟨name, schema⟩ := property
      rw [admitsMembers, Bool.and_eq_true, ih, List.forall_mem_cons, Option.all_eq_true]

theorem insert_new_perm (name : String) (v : Value) (members : List (String × Value))
    (fresh : name ∉ members.map Prod.fst) :
    (insertMember name v members).Perm ((name, v) :: members) := by
  induction members with
  | nil => exact .refl _
  | cons m members ih =>
      obtain ⟨different, absent⟩ : name ≠ m.1 ∧ name ∉ members.map Prod.fst := by
        simpa only [List.map_cons, List.mem_cons, not_or] using fresh
      rw [insertMember, if_neg different]
      split
      · exact .refl _
      · exact ((ih absent).cons m).trans (.swap _ _ _)

theorem of_members_perm (members : List (String × Value)) (distinct : (members.map Prod.fst).Nodup) :
    ∃ gathered, Value.ofMembers members = .object gathered ∧ gathered.Perm members := by
  refine ⟨_, rfl, ?_⟩
  induction members using List.reverseRecOn with
  | nil => exact .refl _
  | append_singleton members m ih =>
      rw [List.map_append, List.nodup_append] at distinct
      obtain ⟨earlier, _, apart⟩ := distinct
      rw [List.foldl_append, List.foldl_cons, List.foldl_nil]
      have same := ih earlier
      refine (insert_new_perm m.1 m.2 _ fun taken => ?_).trans ((same.cons m).trans ?_)
      · exact apart m.1 ((same.map Prod.fst).mem_iff.mp taken) m.1 (List.mem_singleton_self _) rfl
      · exact (List.perm_append_singleton m members).symm

theorem admits_of_members (keywords : List (String × Value)) (v : Value)
    (distinct : (keywords.map Prod.fst).Nodup) :
    admits (.ofMembers keywords) v = true ↔ ∀ keyword ∈ keywords, demand keyword v = true := by
  obtain ⟨gathered, whole, same⟩ := of_members_perm keywords distinct
  rw [whole, admits, admits_all_iff]
  exact forall_congr' fun keyword => by rw [same.mem_iff]

theorem demand_type (name : String) (v : Value) :
    demand (Schema.typeMember name) v = true ↔ v.kind = name := by
  simp only [demand, admitsAll, Schema.typeMember, if_true, Value.text?, Bool.and_true, beq_iff_eq,
    Option.some.injEq]
  exact eq_comm

theorem demand_description (description : Option String) (keyword : String × Value) (v : Value)
    (declared : keyword ∈ Schema.describe description) : demand keyword v = true := by
  cases description with
  | none => cases declared
  | some text =>
      rw [List.mem_singleton.mp declared]
      simp [demand, admitsAll]

theorem demand_items (schema v : Value) :
    demand ("items", schema) v = true ↔ ∀ item ∈ v.items, admits schema item = true := by
  simp [demand, admitsAll]

theorem demand_properties (properties : List (String × Value)) (v : Value)
    (distinct : (properties.map Prod.fst).Nodup) :
    demand ("properties", .ofMembers properties) v = true ↔
      ∀ property ∈ properties, ∀ w, v.member? property.1 = some w → admits property.2 w = true := by
  obtain ⟨gathered, whole, same⟩ := of_members_perm properties distinct
  have opened : demand ("properties", .object gathered) v = admitsMembers gathered v := by
    simp [demand, admitsAll, admitsProperties]
  rw [whole, opened, admits_members_iff]
  exact forall_congr' fun property => by rw [same.mem_iff]

theorem demand_required (required : List String) (members : List (String × Value)) :
    (∀ keyword ∈ Schema.requireMember required, demand keyword (.object members) = true) ↔
      ∀ name ∈ required, (lookup? name members).isSome = true := by
  by_cases none : required = []
  · simp [none, Schema.requireMember]
  · have some : required.isEmpty = false := by simpa using none
    simp [Schema.requireMember, some, demand, admitsAll, hasNames, Value.isObject, Value.text?,
      Value.member?]

theorem kind_text (v : Value) : v.kind = "string" ↔ ∃ s, v = .text s := by
  cases v <;> simp [Value.kind]

theorem kind_array (v : Value) : v.kind = "array" ↔ ∃ items, v = .array items := by
  cases v <;> simp [Value.kind]

theorem kind_object (v : Value) : v.kind = "object" ↔ ∃ members, v = .object members := by
  cases v <;> simp [Value.kind]

theorem to_members_map (properties : List (String × Schema)) :
    Schema.toMembers properties = properties.map fun property => (property.1, property.2.toValue) := by
  induction properties with
  | nil => rfl
  | cons property rest ih => rw [Schema.toMembers, ih, List.map_cons]

theorem admits_text_iff (description : Option String) (v : Value) :
    admits (Schema.text description).toValue v = true ↔ ∃ s, v = .text s := by
  have distinct : ((Schema.typeMember "string" :: Schema.describe description).map Prod.fst).Nodup := by
    cases description <;> simp [Schema.describe, Schema.typeMember]
  rw [Schema.toValue, admits_of_members _ v distinct, List.forall_mem_cons, demand_type, kind_text,
    and_iff_left fun keyword declared => demand_description description keyword v declared]

theorem admits_array_iff (schema : Schema) (v : Value) :
    admits (Schema.array schema).toValue v = true ↔
      ∃ items, v = .array items ∧ ∀ item ∈ items, admits schema.toValue item = true := by
  have distinct : ([Schema.typeMember "array", ("items", schema.toValue)].map Prod.fst).Nodup := by
    simp [Schema.typeMember]
  rw [Schema.toValue, admits_of_members _ v distinct, List.forall_mem_cons, List.forall_mem_singleton,
    demand_type, kind_array, demand_items]
  constructor
  · rintro ⟨⟨items, rfl⟩, every⟩
    exact ⟨items, rfl, every⟩
  · rintro ⟨items, rfl, every⟩
    exact ⟨⟨items, rfl⟩, every⟩

structure ObjectOf (properties : List (String × Schema)) (required : List String)
    (members : List (String × Value)) : Prop where
  declared : ∀ property ∈ properties, ∀ w, lookup? property.1 members = some w →
    admits property.2.toValue w = true
  present : ∀ name ∈ required, (lookup? name members).isSome = true

theorem admits_object_iff (properties : List (String × Schema)) (required : List String) (v : Value)
    (distinct : (properties.map Prod.fst).Nodup) :
    admits (Schema.object properties required).toValue v = true ↔
      ∃ members, v = .object members ∧ ObjectOf properties required members := by
  have apart : ((Schema.toMembers properties).map Prod.fst).Nodup := by
    rw [to_members_map, List.map_map]
    exact distinct
  have keywords : ((Schema.typeMember "object" :: ("properties", .ofMembers (Schema.toMembers properties)) ::
      Schema.requireMember required).map Prod.fst).Nodup := by
    unfold Schema.requireMember
    split <;> simp [Schema.typeMember]
  have every (members : List (String × Value)) :
      (∀ property ∈ Schema.toMembers properties, ∀ w, lookup? property.1 members = some w →
          admits property.2 w = true) ↔
        ∀ property ∈ properties, ∀ w, lookup? property.1 members = some w →
          admits property.2.toValue w = true := by
    rw [to_members_map, List.forall_mem_map]
  rw [Schema.toValue, admits_of_members _ v keywords, List.forall_mem_cons, List.forall_mem_cons,
    demand_type, kind_object, demand_properties _ v apart]
  constructor
  · rintro ⟨⟨members, rfl⟩, declared, present⟩
    exact ⟨members, rfl, (every members).mp declared, (demand_required required members).mp present⟩
  · rintro ⟨members, rfl, declared, present⟩
    exact ⟨⟨members, rfl⟩, (every members).mpr declared, (demand_required required members).mpr present⟩

end MarkdownServer.Json
