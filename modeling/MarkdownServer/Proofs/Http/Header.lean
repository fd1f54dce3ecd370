import MarkdownServer.Http.Exchange
/- The session that a request names is in the first header of that purpose, whatever the letter case of
   its name, and only if its value is of visible ASCII characters, blanks and tabs. -/
set_option autoImplicit false

namespace MarkdownServer.Http.Request

structure Names (request : Request) (id : String) : Prop where
  first : ∃ front name back, request.headers = front ++ (name, id) :: back ∧
    name.toLower = "mcp-session-id" ∧ ∀ header ∈ front, header.1.toLower ≠ "mcp-session-id"
  readable : ∀ c ∈ id.toList, c = '\t' ∨ 32 ≤ c.toNat ∧ c.toNat ≤ 126

theorem is_readable_iff (value : String) :
    isReadable value = true ↔ ∀ c ∈ value.toList, c = '\t' ∨ 32 ≤ c.toNat ∧ c.toNat ≤ 126 := by
  simp [isReadable, Nat.lt_succ_iff]

theorem session_iff (request : Request) (id : String) : request.session? = some id ↔ request.Names id := by
  rw [session?, Option.filter_eq_some_iff, is_readable_iff, header?, Option.map_eq_some_iff]
  constructor
  · rintro ⟨⟨⟨name, value⟩, found, rfl⟩, readable⟩
    obtain ⟨own, front, back, split, others⟩ := List.find?_eq_some_iff_append.mp found
    refine ⟨⟨front, name, back, split, by simpa [sessionHeader] using own, fun header member => ?_⟩, readable⟩
    simpa [sessionHeader] using others header member
  · rintro ⟨⟨front, name, back, split, own, others⟩, readable⟩
    refine ⟨⟨(name, id), List.find?_eq_some_iff_append.mpr ?_, rfl⟩, readable⟩
    refine ⟨by simpa [sessionHeader] using own, front, back, split, fun header member => ?_⟩
    simpa [sessionHeader] using others header member

theorem session_none_iff (request : Request) : request.session? = none ↔ ∀ id, ¬ request.Names id := by
  simp only [Option.eq_none_iff_forall_ne_some, ne_eq, session_iff]

theorem Names.unique (request : Request) (id other : String) (names : request.Names id)
    (again : request.Names other) : id = other :=
  Option.some.inj (((session_iff request id).mpr names).symm.trans ((session_iff request other).mpr again))

instance (request : Request) (id : String) : Decidable (request.Names id) :=
  decidable_of_iff (request.session? = some id) (session_iff request id)

end MarkdownServer.Http.Request
