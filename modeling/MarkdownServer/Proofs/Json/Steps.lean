import MarkdownServer.Proofs.Json.Suffix
/- The number of steps a reading takes. A reader that succeeds takes at most one step for each
   character it reads, so a larger bound on the steps changes nothing. A reader that stops leaves a
   draft without a value. -/
set_option autoImplicit false

namespace MarkdownServer.Json

theorem skip_space_length (cs : List Char) : (skipSpace cs).length ≤ cs.length :=
  (List.dropWhile_sublist _).length_le

theorem bind_ok {ε α β : Type} (first : Except ε α) (next : α → Except ε β) (result : β)
    (read : first >>= next = .ok result) : ∃ value, first = .ok value ∧ next value = .ok result := by
  cases first with
  | error fault => cases read
  | ok value => exact ⟨value, rfl, read⟩

theorem read_digits_length (cs digits rest : List Char) (read : readDigits cs = .ok (digits, rest)) :
    rest.length < cs.length := by
  unfold readDigits at read
  split at read
  · cases read
  · rename_i c cs
    split at read
    · rename_i digit
      cases read
      rw [List.dropWhile_cons_of_pos digit]
      exact Nat.lt_succ_of_le (List.dropWhile_sublist _).length_le
    · cases read

theorem read_exponent_length (negative : Bool) (s : Significand) (cs rest : List Char)
    (number : Option Number) (read : readExponent negative s cs = .ok (number, rest)) :
    rest.length ≤ cs.length := by
  unfold readExponent at read
  split at read
  · cases read
    exact Nat.le_refl _
  · rename_i c cs
    split at read
    · split at read
      rename_i down signed sign
      have shorter : signed.length ≤ cs.length := by
        split at sign <;> cases sign <;> simp
      obtain ⟨⟨digits, left⟩, taken, read⟩ := bind_ok _ _ _ read
      obtain ⟨value, _, read⟩ := bind_ok _ _ _ read
      cases read
      have := read_digits_length signed digits _ taken
      simp only [List.length_cons]
      omega
    · cases read
      exact Nat.le_refl _

theorem number_end_length (negative : Bool) (s : Significand) (cs rest : List Char) (number : Number)
    (plain : Except Fault Number)
    (read : (do
      match ← readExponent negative s cs with
      | (some n, rest) => return (n, rest)
      | (none, rest) => return (← plain, rest)) = Except.ok (number, rest)) :
    rest.length ≤ cs.length := by
  obtain ⟨⟨exponent, left⟩, taken, read⟩ := bind_ok _ _ _ read
  have shorter := read_exponent_length negative s cs left exponent taken
  cases exponent with
  | some exponent =>
      cases read
      exact shorter
  | none =>
      obtain ⟨value, _, read⟩ := bind_ok _ _ _ read
      cases read
      exact shorter

theorem read_fraction_length (negative : Bool) (s : Significand) (cs rest : List Char)
    (number : Number) (read : readFraction negative s cs = .ok (number, rest)) :
    rest.length ≤ cs.length := by
  unfold readFraction at read
  split at read
  · rename_i behind
    obtain ⟨⟨digits, left⟩, taken, read⟩ := bind_ok _ _ _ read
    have := read_digits_length behind digits left taken
    have := number_end_length negative _ left rest number _ read
    simp only [List.length_cons]
    omega
  · exact number_end_length negative _ cs rest number _ read

theorem read_unsigned_length (negative : Bool) (cs rest : List Char) (number : Number)
    (read : readUnsigned negative cs = .ok (number, rest)) : rest.length < cs.length := by
  unfold readUnsigned at read
  split at read
  · split at read
    · cases read
    · exact Nat.lt_succ_of_le (read_fraction_length negative _ _ rest number read)
  · obtain ⟨⟨digits, left⟩, taken, read⟩ := bind_ok _ _ _ read
    have := read_digits_length cs digits left taken
    have := read_fraction_length negative _ left rest number read
    omega

theorem read_number_length (cs rest : List Char) (number : Number)
    (read : readNumber cs = .ok (number, rest)) : rest.length < cs.length := by
  by_cases minus : cs.head? = some '-'
  · obtain ⟨cs, rfl⟩ := List.head?_eq_some_iff.mp minus
    rw [read_number_negative] at read
    exact Nat.lt_succ_of_lt (read_unsigned_length true cs rest number read)
  · rw [read_number_positive cs minus] at read
    exact read_unsigned_length false cs rest number read

theorem read_word_length (word cs rest : List Char) (read : readWord word cs = .ok rest) :
    rest.length ≤ cs.length := by
  induction word generalizing cs with
  | nil =>
      cases read
      exact Nat.le_refl _
  | cons w word ih =>
      cases cs with
      | nil => cases read
      | cons c cs =>
          rw [readWord] at read
          split at read
          · exact Nat.le_succ_of_le (ih cs read)
          · cases read

theorem read_text_length (state : TextState) (done cs rest : List Char) (text : String)
    (read : readText state done cs = .ok (text, rest)) : rest.length < cs.length := by
  fun_induction readText state done cs <;> simp_all <;> omega

theorem read_colon_length (cs rest : List Char) (read : readColon cs = .ok rest) :
    rest.length < cs.length := by
  have shorter := skip_space_length cs
  unfold readColon at read
  split at read
  · cases read
  · rename_i left skipped
    cases read
    rw [skipped, List.length_cons] at shorter
    omega
  · cases read

theorem of_except_read (result : Except Fault (Draft × List Char)) (draft : Draft) (rest : List Char)
    (read : Reading.ofExcept result = (draft, some rest)) : result = .ok (draft, rest) := by
  cases result with
  | error fault => cases read
  | ok value =>
      cases read
      rfl

theorem read_scalar_length (c : Char) (cs rest : List Char) (draft : Draft)
    (read : readScalar (c :: cs) = (draft, some rest)) : rest.length ≤ cs.length := by
  rw [read_scalar_cons] at read
  replace read := of_except_read _ _ _ read
  have word (word : List Char) (draft' : Draft)
      (read : (readWord word cs).map (fun rest => (draft', rest)) = .ok (draft, rest)) :
      rest.length ≤ cs.length := by
    cases taken : readWord word cs with
    | error fault =>
        rw [taken] at read
        cases read
    | ok left =>
        rw [taken] at read
        cases read
        exact read_word_length word cs _ taken
  split at read
  · exact word _ _ read
  split at read
  · exact word _ _ read
  split at read
  · exact word _ _ read
  split at read
  · cases taken : readText .plain [] cs with
    | error fault =>
        rw [taken] at read
        cases read
    | ok result =>
        rw [taken] at read
        cases read
        exact Nat.le_of_lt (read_text_length .plain [] cs _ _ taken)
  split at read
  · cases taken : readNumber (c :: cs) with
    | error fault =>
        rw [taken] at read
        cases read
    | ok result =>
        rw [taken] at read
        cases read
        exact Nat.le_of_lt_succ (read_number_length (c :: cs) _ _ taken)
  · cases read

-- A reader that leaves a rest has taken characters, and one step for each of them would do.
def Lasting (reader : Nat → Reading) (steps length : Nat) : Prop :=
  ∀ draft rest, reader steps = (draft, some rest) →
    rest.length < length ∧ ∀ more, length ≤ more + rest.length → reader more = (draft, some rest)

theorem lasting_succ (reader inner : Nat → Reading) (steps length : Nat)
    (unfolds : ∀ fewer, reader (fewer + 1) = inner fewer)
    (kept : ∀ draft rest, inner steps = (draft, some rest) → rest.length < length ∧
      ∀ fewer, length ≤ fewer + 1 + rest.length → inner fewer = (draft, some rest)) :
    Lasting reader (steps + 1) length := by
  intro draft rest read
  rw [unfolds] at read
  obtain ⟨less, enough⟩ := kept draft rest read
  refine ⟨less, fun more bound => ?_⟩
  obtain ⟨fewer, rfl⟩ : ∃ fewer, more = fewer + 1 := ⟨more - 1, by omega⟩
  rw [unfolds]
  exact enough fewer bound

theorem listing_lasting (listing : Listing) (entry : Nat → List Char → Reading) (steps : Nat)
    (first : Bool) (cs : List Char)
    (each : ∀ c text, Lasting (fun steps => entry steps (c :: text)) steps text.length)
    (draft : Draft) (rest : List Char)
    (read : listing.read (entry steps) first (skipSpace cs) = (draft, some rest)) :
    rest.length < cs.length ∧ ∀ fewer, cs.length ≤ fewer + 1 + rest.length →
      listing.read (entry fewer) first (skipSpace cs) = (draft, some rest) := by
  have shorter := skip_space_length cs
  cases skipped : skipSpace cs with
  | nil =>
      rw [skipped] at read
      cases read
  | cons c text =>
      rw [skipped, List.length_cons] at shorter
      rw [skipped] at read
      dsimp only [Listing.read] at read ⊢
      split at read
      · rename_i close
        cases read
        refine ⟨by omega, fun fewer _ => ?_⟩
        rw [if_pos close]
      rename_i close
      split at read
      · rename_i start
        obtain ⟨less, enough⟩ := each c text draft rest read
        refine ⟨by omega, fun fewer bound => ?_⟩
        rw [if_neg close, if_pos start]
        exact enough fewer (by omega)
      rename_i start
      split at read
      · rename_i comma
        have shorter' := skip_space_length text
        split at read
        · cases read
        rename_i d text' skipped'
        rw [skipped', List.length_cons] at shorter'
        split at read
        · cases read
        rename_i trailing
        obtain ⟨less, enough⟩ := each d text' draft rest read
        refine ⟨by omega, fun fewer bound => ?_⟩
        rw [if_neg close, if_neg start, if_pos comma, if_neg trailing]
        exact enough fewer (by omega)
      · cases read

structure ReadersLasting (steps : Nat) : Prop where
  value : ∀ depth cs, Lasting (fun steps => readValue steps depth cs) steps cs.length
  items : ∀ depth first done cs, Lasting (fun steps => readItems steps depth first done cs) steps cs.length
  members : ∀ depth first done cs,
    Lasting (fun steps => readMembers steps depth first done cs) steps cs.length

section
variable {steps : Nat}

theorem read_value_lasting (inner : ReadersLasting steps) (depth : Nat) (cs : List Char) :
    Lasting (fun steps => readValue steps depth cs) (steps + 1) cs.length := by
  have shorter := skip_space_length cs
  cases skipped : skipSpace cs with
  | nil =>
      intro draft rest read
      dsimp only at read
      rw [read_value_nil steps depth cs skipped] at read
      cases read
  | cons c text =>
      rw [skipped, List.length_cons] at shorter
      refine lasting_succ _ _ steps cs.length
        (fun fewer => read_value_cons fewer depth cs text c skipped) fun draft rest read => ?_
      split at read
      · rename_i array
        split at read
        · cases read
        rename_i shallow
        obtain ⟨less, enough⟩ := inner.items (depth - 1) true [] text draft rest read
        refine ⟨by omega, fun fewer bound => ?_⟩
        rw [if_pos array, if_neg shallow]
        exact enough fewer (by omega)
      rename_i array
      split at read
      · rename_i object
        split at read
        · cases read
        rename_i shallow
        obtain ⟨less, enough⟩ := inner.members (depth - 1) true [] text draft rest read
        refine ⟨by omega, fun fewer bound => ?_⟩
        rw [if_neg array, if_pos object, if_neg shallow]
        exact enough fewer (by omega)
      · rename_i object
        have less := read_scalar_length c text rest draft read
        refine ⟨by omega, fun fewer _ => ?_⟩
        rw [if_neg array, if_neg object]
        exact read

theorem read_item_lasting (inner : ReadersLasting steps) (depth : Nat) (done : List Draft) (c : Char)
    (text : List Char) : Lasting (fun steps => readItem steps depth done (c :: text)) steps text.length := by
  intro draft rest read
  dsimp only [readItem] at read ⊢
  split at read
  · rename_i item left value
    obtain ⟨less, enough⟩ := inner.value depth (c :: text) item left value
    obtain ⟨less', enough'⟩ := inner.items depth false (item :: done) left draft rest read
    rw [List.length_cons] at less enough
    refine ⟨by omega, fun more bound => ?_⟩
    have again : readValue more depth (c :: text) = (item, some left) := enough more (by omega)
    rw [again]
    exact enough' more (by omega)
  · cases read

theorem read_named_lasting (inner : ReadersLasting steps) (depth : Nat) (done : List (Draft × Draft))
    (cs : List Char) : Lasting (fun steps => readNamed steps depth done cs) steps cs.length := by
  intro draft rest read
  dsimp only [readNamed] at read ⊢
  split at read
  · cases read
  rename_i name behind text
  have textLess := read_text_length .plain [] cs behind name text
  split at read
  · cases read
  rename_i start colon
  have colonLess := read_colon_length behind start colon
  split at read
  · rename_i member left value
    obtain ⟨less, enough⟩ := inner.value depth start member left value
    obtain ⟨less', enough'⟩ := inner.members depth false ((.text name, member) :: done) left draft rest read
    refine ⟨by omega, fun more bound => ?_⟩
    have again : readValue more depth start = (member, some left) := enough more (by omega)
    rw [again]
    exact enough' more (by omega)
  · cases read

theorem read_member_lasting (inner : ReadersLasting steps) (depth : Nat) (done : List (Draft × Draft))
    (c : Char) (text : List Char) :
    Lasting (fun steps => readMember steps depth done (c :: text)) steps text.length := by
  by_cases quote : c = '"'
  · subst quote
    exact read_named_lasting inner depth done text
  · intro draft rest read
    dsimp only at read
    rw [read_member_unnamed steps depth done c text quote] at read
    cases read

end

theorem readers_lasting (steps : Nat) : ReadersLasting steps := by
  induction steps with
  | zero => exact ⟨fun _ _ _ _ read => (nomatch read), fun _ _ _ _ _ _ read => (nomatch read),
      fun _ _ _ _ _ _ read => (nomatch read)⟩
  | succ steps ih =>
      refine ⟨read_value_lasting ih, fun depth first done cs => ?_, fun depth first done cs => ?_⟩
      · exact lasting_succ _ _ steps cs.length
          (fun fewer => read_items_listing fewer depth first done cs)
          (listing_lasting _ (fun steps => readItem steps depth done) steps first cs fun c text =>
            read_item_lasting ih depth done c text)
      · exact lasting_succ _ _ steps cs.length
          (fun fewer => read_members_listing fewer depth first done cs)
          (listing_lasting _ (fun steps => readMember steps depth done) steps first cs fun c text =>
            read_member_lasting ih depth done c text)

end MarkdownServer.Json
