import MarkdownServer.Proofs.Wiki.Lines
/- The pass over double asterisks, and what it leaves of a passage that no asterisk stands next to. It comes
   to the passage outside of bold text, or inside of bold text that started in front of it. -/
set_option autoImplicit false

namespace MarkdownServer.Wiki.Cleanup

def PlainThrough (count : Nat) (text : List Char) : Prop := ∀ i < count, ¬ Bold (text.drop i)

theorem plain_through_succ (count : Nat) (c : Char) (text : List Char) :
    PlainThrough (count + 1) (c :: text) ↔ ¬ Bold (c :: text) ∧ PlainThrough count text := by
  constructor
  · intro plain
    exact ⟨plain 0 (by omega), fun i small => plain (i + 1) (by omega)⟩
  · rintro ⟨first, rest⟩ i small
    cases i with
    | zero => exact first
    | succ i => exact rest i (by omega)

/- How the pass comes to a text with `front` in front of it: outside of bold text, or inside of bold text
   that ends behind `body`, with `rest` behind its two asterisks. -/
inductive Reached (text : List Char) : List Char → Option (List Char × List Char) → Prop where
  | start : Reached text [] none
  | plain (c : Char) (front : List Char) (state : Option (List Char × List Char))
      (none : bold? (c :: (front ++ text)) = none) (further : Reached text front state) :
      Reached text (c :: front) state
  | closed (inner front : List Char) (state : Option (List Char × List Char))
      (found : bold? ('*' :: '*' :: (inner ++ '*' :: '*' :: (front ++ text))) =
        some (inner.reverse, front ++ text))
      (further : Reached text front state) : Reached text ('*' :: '*' :: (inner ++ '*' :: '*' :: front)) state
  | opened (inner body rest : List Char)
      (found : bold? ('*' :: '*' :: (inner ++ text)) = some ((inner ++ body).reverse, rest))
      (whole : text = body ++ '*' :: '*' :: rest) : Reached text ('*' :: '*' :: inner) (some (body, rest))

def passOn (text : List Char) : Option (List Char × List Char) → List Char
  | none => singleAsterisks [] text
  | some (body, rest) => body ++ '*' :: singleAsterisks [] rest

theorem reached_somehow (front text : List Char) (apart : ['*'] <:+ front → text.head? ≠ some '*') :
    ∃ state, Reached text front state := by
  induction size : front.length using Nat.strong_induction_on generalizing front with
  | _ count ih =>
    cases front with
    | nil => exact ⟨none, .start⟩
    | cons c front =>
        cases found : bold? (c :: (front ++ text)) with
        | none =>
            obtain ⟨state, further⟩ := ih front.length (size ▸ Nat.lt_succ_self _) front
              (fun last => apart (last.trans (List.suffix_cons c front))) rfl
            exact ⟨state, .plain c front state found further⟩
        | some split =>
            obtain ⟨inner, rest⟩ := split
            obtain ⟨rfl, second⟩ := List.cons.inj (bold_text _ _ _ found)
            cases front with
            | nil => exact absurd (by simpa using congrArg List.head? second) (apart (List.suffix_refl _))
            | cons d front =>
                obtain ⟨rfl, within⟩ := List.cons.inj second
                obtain ⟨body, same, rfl⟩ | ⟨more, rfl, closing⟩ := List.append_eq_append_iff.mp within
                · refine ⟨some (body, rest), .opened front body rest ?_ rfl⟩
                  rw [← same, List.reverse_reverse]
                  exact found
                · match more with
                  | [] =>
                      rw [List.append_nil] at *
                      refine ⟨some ([], rest), .opened _ [] rest ?_ closing.symm⟩
                      rw [List.append_nil, List.reverse_reverse]
                      exact found
                  | [e] =>
                      cases closing
                      exact absurd rfl (apart ⟨'*' :: '*' :: inner.reverse, rfl⟩)
                  | e :: e' :: front =>
                      cases closing
                      have part : front <:+ '*' :: '*' :: (inner.reverse ++ '*' :: '*' :: front) :=
                        ⟨'*' :: '*' :: (inner.reverse ++ ['*', '*']), by simp⟩
                      have shorter : front.length < count := by
                        rw [← size]
                        simp +arith
                      obtain ⟨state, further⟩ := ih front.length shorter front
                        (fun last => apart (last.trans part)) rfl
                      refine ⟨state, .closed inner.reverse front state ?_ further⟩
                      rw [List.reverse_reverse]
                      simpa using found

theorem reached_open (front text body rest : List Char) (reached : Reached text front (some (body, rest))) :
    text = body ++ '*' :: '*' :: rest := by
  generalize same : some (body, rest) = state at reached
  induction reached with
  | start => cases same
  | plain c front state none further ih => exact ih same
  | closed inner front state found further ih => exact ih same
  | opened inner body' rest' found whole =>
      cases same
      exact whole

theorem squeezed_closing (rest : List Char) :
    Squeezed (· = '*') ('*' :: '*' :: rest) ('*' :: singleAsterisks [] rest) :=
  .drop _ _ _ rfl rfl (.keep _ _ _ (single_asterisks_squeezed [] rest))

theorem squeezed_bold (inner rest text : List Char) (squeezed : Squeezed (· = '*') rest text) :
    Squeezed (· = '*') ('*' :: '*' :: (inner ++ '*' :: '*' :: rest)) ('*' :: (inner ++ '*' :: text)) := by
  have closing : Squeezed (· = '*') ('*' :: '*' :: rest) ('*' :: text) :=
    .drop _ _ _ rfl rfl (.keep _ _ _ squeezed)
  exact .drop _ _ _ rfl rfl (.keep _ _ _ (squeezed_prepend inner _ _ closing))

theorem not_plain_through (text more : List Char) (inner rest : List Char)
    (found : bold? ('*' :: (text ++ more)) = some (inner, rest)) :
    ¬ PlainThrough ('*' :: text).length ('*' :: (text ++ more)) := by
  intro plain
  refine plain 0 (Nat.zero_lt_succ _) ((bold_iff _).mp ?_)
  rw [List.drop_zero, found]
  rfl

-- The pass leaves all that stands in front of a place exactly where no bold text starts there.
theorem reached_passed (front text : List Char) (state : Option (List Char × List Char))
    (reached : Reached text front state) :
    ∃ front', singleAsterisks [] (front ++ text) = front' ++ passOn text state ∧
      Squeezed (· = '*') front front' ∧
      (front' = front ↔ PlainThrough front.length (front ++ text)) := by
  induction reached with
  | start => exact ⟨[], rfl, .nil, by simp [PlainThrough]⟩
  | plain c front state none further ih =>
      obtain ⟨front', passed, squeezed, same⟩ := ih
      have light : ¬ Bold (c :: (front ++ text)) := by
        rw [← bold_iff, none]
        exact Bool.false_ne_true
      refine ⟨c :: front', ?_, .keep c _ _ squeezed, ?_⟩
      · rw [List.cons_append, single_asterisks_plain _ _ none, passed]
        rfl
      · rw [List.length_cons, List.cons_append, plain_through_succ, ← same]
        simp [light]
  | closed inner front state found further ih =>
      obtain ⟨front', passed, squeezed, -⟩ := ih
      refine ⟨'*' :: (inner ++ '*' :: front'), ?_, squeezed_bold inner front front' squeezed, ?_⟩
      · have whole : '*' :: '*' :: (inner ++ '*' :: '*' :: front) ++ text =
            '*' :: '*' :: (inner ++ '*' :: '*' :: (front ++ text)) := by simp
        rw [whole, single_asterisks_bold _ _ _ found, passed]
        simp
      · constructor
        · intro same
          have count := congrArg List.length same
          have less := (squeezed_thinned _ _ squeezed)
          have bound := (thinned_sublist _ _ less).length_le
          simp at count
          omega
        · intro plain
          refine absurd plain (not_plain_through ('*' :: (inner ++ '*' :: '*' :: front)) text
            inner.reverse (front ++ text) ?_)
          simpa using found
  | opened inner body rest found whole =>
      refine ⟨'*' :: inner, ?_, .drop _ _ _ rfl rfl (squeezed_refl _), ?_⟩
      · rw [List.cons_append, List.cons_append, single_asterisks_bold _ _ _ found]
        simp [passOn]
      · constructor
        · intro same
          have count := congrArg List.length same
          simp at count
        · intro plain
          exact absurd plain (not_plain_through ('*' :: inner) text _ _ found)

theorem single_asterisks_to (front back : List Char) (e : Char) (other : e ≠ '*') :
    ∃ front' back', singleAsterisks [] (front ++ e :: back) = front' ++ e :: back' ∧
      Squeezed (· = '*') front front' ∧ Squeezed (· = '*') back back' ∧
      (front' = front ↔ PlainThrough front.length (front ++ e :: back)) := by
  obtain ⟨state, reached⟩ := reached_somehow front (e :: back) fun _ first =>
    other (Option.some.inj first)
  obtain ⟨front', passed, squeezed, same⟩ := reached_passed front _ state reached
  have on : ∃ back', passOn (e :: back) state = e :: back' ∧ Squeezed (· = '*') back back' := by
    cases state with
    | none =>
        have plain : bold? (e :: back) = none := bold_single _ fun more same => other (List.cons.inj same).1
        exact ⟨_, single_asterisks_plain e back plain, single_asterisks_squeezed [] back⟩
    | some split =>
        obtain ⟨body, rest⟩ := split
        have whole := reached_open front (e :: back) body rest reached
        cases body with
        | nil => exact absurd (List.cons.inj whole).1 other
        | cons c body =>
            obtain ⟨rfl, behind⟩ := List.cons.inj whole
            refine ⟨_, rfl, ?_⟩
            rw [behind]
            exact squeezed_prepend body _ _ (squeezed_closing rest)
  obtain ⟨back', on, behind⟩ := on
  exact ⟨front', back', on ▸ passed, squeezed, behind, same⟩

theorem reached_plain (c : Char) (front text : List Char) (state : Option (List Char × List Char))
    (plain : bold? (c :: (front ++ text)) = none) (reached : Reached text (c :: front) state) :
    Reached text front state := by
  cases reached with
  | plain _ _ _ _ further => exact further
  | closed inner front' _ found _ =>
      have whole : '*' :: (inner ++ '*' :: '*' :: front') ++ text =
          '*' :: (inner ++ '*' :: '*' :: (front' ++ text)) := by simp
      rw [whole, found] at plain
      cases plain
  | opened inner body rest found _ =>
      have none : bold? ('*' :: '*' :: (inner ++ text)) = .none := plain
      rw [found] at none
      cases none

theorem reached_bold (c : Char) (front text inner rest : List Char)
    (state : Option (List Char × List Char)) (bold : bold? (c :: (front ++ text)) = some (inner, rest))
    (reached : Reached text (c :: front) state) :
    (∃ front', rest = front' ++ text ∧ Reached text front' state) ∨
      ∃ body, text = body ++ '*' :: '*' :: rest ∧ state = some (body, rest) := by
  cases reached with
  | plain _ _ _ none _ =>
      rw [bold] at none
      cases none
  | closed inner' front' _ found further =>
      have whole : '*' :: (inner' ++ '*' :: '*' :: front') ++ text =
          '*' :: (inner' ++ '*' :: '*' :: (front' ++ text)) := by simp
      rw [whole, found] at bold
      cases bold
      exact .inl ⟨front', rfl, further⟩
  | opened inner' body rest' found whole =>
      have same : bold? ('*' :: '*' :: (inner' ++ text)) = some (inner, rest) := bold
      rw [found] at same
      cases same
      exact .inr ⟨body, whole, rfl⟩

theorem reached_once (front text : List Char) (state other : Option (List Char × List Char))
    (first : Reached text front state) (second : Reached text front other) : other = state := by
  induction first with
  | start =>
      cases second
      rfl
  | plain c front state none further ih => exact ih (reached_plain c front text other none second)
  | closed inner front state found further ih =>
      have bold : bold? ('*' :: ('*' :: (inner ++ '*' :: '*' :: front) ++ text)) =
          some (inner.reverse, front ++ text) := by simpa using found
      obtain ⟨front', same, further'⟩ | ⟨body, whole, -⟩ := reached_bold _ _ _ _ _ _ bold second
      · cases List.append_cancel_right same
        exact ih further'
      · have count := congrArg List.length whole
        simp at count
        omega
  | opened inner body rest found whole =>
      obtain ⟨front', same, -⟩ | ⟨body', whole', rfl⟩ := reached_bold _ _ _ _ _ _ found second
      · have count := congrArg List.length whole
        rw [same] at count
        simp at count
        omega
      · cases List.append_cancel_right (whole.symm.trans whole')
        rfl

/- A passage is left alone where no bold text starts in it, or where it is part of bold text that started
   in front of it. -/
def Clear (passage back : List Char) : Option (List Char × List Char) → Prop
  | none => PlainThrough passage.length (passage ++ back)
  | some (body, _) => passage.length ≤ body.length

def Stays (front passage back : List Char) : Prop :=
  ∃ state, Reached (passage ++ back) front state ∧ Clear passage back state

theorem stays_iff (front passage back : List Char) (state : Option (List Char × List Char))
    (reached : Reached (passage ++ back) front state) :
    Stays front passage back ↔ Clear passage back state := by
  constructor
  · rintro ⟨other, reached', clear⟩
    rwa [reached_once front _ state other reached reached'] at clear
  · exact fun clear => ⟨state, reached, clear⟩

theorem pass_on_passage (passage back : List Char) (e : Char) (other : e ≠ '*')
    (state : Option (List Char × List Char))
    (whole : ∀ body rest, state = some (body, rest) → passage ++ e :: back = body ++ '*' :: '*' :: rest) :
    ∃ passage' back', passOn (passage ++ e :: back) state = passage' ++ e :: back' ∧
      Squeezed (· = '*') passage passage' ∧ Squeezed (· = '*') back back' ∧
      (passage' = passage ↔ Clear passage (e :: back) state) := by
  cases state with
  | none => exact single_asterisks_to passage back e other
  | some split =>
      obtain ⟨body, rest⟩ := split
      obtain ⟨more, rfl, behind⟩ | ⟨more, rfl, behind⟩ :=
        List.append_eq_append_iff.mp (whole body rest rfl)
      · -- The bold text goes on behind the passage.
        cases more with
        | nil => exact absurd (List.cons.inj behind).1 other
        | cons c more =>
            obtain ⟨rfl, rfl⟩ := List.cons.inj behind
            refine ⟨passage, more ++ '*' :: singleAsterisks [] rest, by simp [passOn], squeezed_refl _,
              squeezed_prepend more _ _ (squeezed_closing rest), ?_⟩
            simp [Clear]
      · match more with
        | [] => exact absurd (List.cons.inj behind).1.symm other
        | [c] =>
            obtain ⟨-, next⟩ := List.cons.inj behind
            exact absurd (List.cons.inj next).1.symm other
        | c :: c' :: more =>
            obtain ⟨rfl, next⟩ := List.cons.inj behind
            obtain ⟨rfl, rfl⟩ := List.cons.inj next
            obtain ⟨left, back', passed, first, second, -⟩ := single_asterisks_to more back e other
            have less : Squeezed (· = '*') ('*' :: '*' :: more) ('*' :: left) :=
              .drop _ _ _ rfl rfl (.keep _ _ _ first)
            refine ⟨body ++ '*' :: left, back', ?_, squeezed_prepend body _ _ less, second, ?_⟩
            · simp [passOn, passed]
            · have bound := (thinned_sublist _ _ (squeezed_thinned _ _ first)).length_le
              constructor
              · intro same
                have count := congrArg List.length same
                simp at count
                omega
              · intro clear
                have within : (body ++ '*' :: '*' :: more).length ≤ body.length := clear
                simp only [List.length_append, List.length_cons] at within
                omega

theorem single_asterisks_around (front passage back : List Char) (d e : Char) (before : d ≠ '*')
    (behind : e ≠ '*') :
    ∃ front' passage' back',
      singleAsterisks [] (front ++ d :: (passage ++ e :: back)) =
        front' ++ d :: (passage' ++ e :: back') ∧
      Squeezed (· = '*') front front' ∧ Squeezed (· = '*') passage passage' ∧
      Squeezed (· = '*') back back' ∧
      (passage' = passage ↔ Stays (front ++ [d]) passage (e :: back)) := by
  obtain ⟨state, reached⟩ := reached_somehow (front ++ [d]) (passage ++ e :: back) fun last => by
    obtain ⟨front', same⟩ := last
    exact absurd (List.append_inj' same rfl).2 (by simpa using before.symm)
  obtain ⟨left, passed, squeezed, -⟩ := reached_passed _ _ state reached
  obtain ⟨front', nothing, rfl, first, none⟩ := squeezed_apart front [] left d before squeezed
  cases none
  obtain ⟨passage', back', on, own, last, same⟩ := pass_on_passage passage back e behind state
    fun body rest opened => reached_open _ _ body rest (opened ▸ reached)
  refine ⟨front', passage', back', ?_, first, own, last, same.trans (stays_iff _ _ _ state reached).symm⟩
  rw [on] at passed
  simpa using passed

end MarkdownServer.Wiki.Cleanup
