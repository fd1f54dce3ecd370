import MarkdownServer.Text.Blank
import MarkdownServer.Proofs.Markdown.Provenance.Block
/- Two kinds of characters: all but NUL, which no reference stands for, and blanks, which start no
   reference. -/
set_option autoImplicit false

namespace MarkdownServer.Markdown

def Solid (c : Char) : Prop := c ≠ '\x00'

def Blank (c : Char) : Prop := Text.isBlank c = true

instance : DecidablePred Solid := fun c => inferInstanceAs (Decidable (c ≠ '\x00'))

instance : DecidablePred Blank := fun c => inferInstanceAs (Decidable (Text.isBlank c = true))

-- Not by going through all characters there are.
instance (P : Char → Prop) [DecidablePred P] (cs : List Char) : Decidable (Only P cs) :=
  List.decidableBAll P cs

namespace Entity

theorem of_code_solid (code : Nat) : Solid (ofCode code) := by
  unfold ofCode
  split
  · rename_i real
    intro same
    have number := congrArg Char.toNat same
    have plain : Char.ofNat code = Char.ofNatAux code real.2 := dif_pos real.2
    have own : (Char.ofNat code).toNat = code := congrArg Char.toNat plain
    exact real.1 (own.symm.trans number)
  · decide

theorem insert_many_values (entries : List (String × List Char))
    (known : Std.HashMap String (List Char)) (new : ∀ entry ∈ entries, Only Solid entry.2)
    (old : ∀ (name : String) (value : List Char), known[name]? = some value → Only Solid value)
    (name : String) (value : List Char) (found : (known.insertMany entries)[name]? = some value) :
    Only Solid value := by
  induction entries generalizing known with
  | nil => exact old name value (by simpa using found)
  | cons entry entries ih =>
      obtain ⟨first, rest⟩ := List.forall_mem_cons.mp new
      rw [Std.HashMap.insertMany_cons] at found
      refine ih (known.insert entry.1 entry.2) rest (fun other value' present => ?_) found
      rw [Std.HashMap.getElem?_insert] at present
      split at present
      · cases present
        exact first
      · exact old other value' present

theorem names_solid (name : String) (value : List Char) (found : names[name]? = some value) :
    Only Solid value := by
  unfold names at found
  rw [Std.HashMap.ofList_eq_insertMany_empty] at found
  refine insert_many_values _ ∅ (fun entry member => ?_) (fun other value' present => ?_) name value found
  · obtain ⟨written, _, same⟩ := List.mem_filterMap.mp member
    split at same
    · cases same
      intro c inside
      obtain ⟨code, _, rfl⟩ := List.mem_map.mp inside
      exact of_code_solid _
    · cases same
  · simp at present

theorem read_solid (text characters : List Char) (length : Nat)
    (found : read text = some (characters, length)) : Only Solid characters := by
  unfold read at found
  split at found
  · dsimp only at found
    obtain ⟨_, found⟩ := Option.ite_none_left_eq_some.mp found
    obtain ⟨_, same⟩ := Option.ite_none_right_eq_some.mp found
    cases same
    exact (only_cons _ _).mpr ⟨of_code_solid _, only_nil⟩
  · obtain ⟨_, found⟩ := Option.ite_none_right_eq_some.mp found
    obtain ⟨value, named, same⟩ := Option.map_eq_some_iff.mp found
    cases same
    exact names_solid _ characters named

end Entity

theorem solid_kind : Kind Solid where
  space := by decide
  feed := by decide
  carriage := by decide
  reference _ := Entity.read_solid

theorem blank_kind : Kind Blank where
  space := by decide
  feed := by decide
  carriage := by decide
  reference ampersand := absurd ampersand (by decide)

theorem parse_solid (source : String) (free : '\x00' ∉ source.toList) : (parse source).Made Solid :=
  parse_made solid_kind source fun c member same => free (by rwa [← same])

theorem parse_blank (source : String) (blank : Text.allBlank source = true) :
    (parse source).Made Blank :=
  parse_made blank_kind source (List.all_eq_true.mp blank)

end MarkdownServer.Markdown
