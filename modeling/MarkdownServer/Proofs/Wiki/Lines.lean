import MarkdownServer.Proofs.Wiki.Cleanup
/- The passes go over raw markup line by line: what they make of the lines in front of a line end is
   the same whatever follows it. -/
set_option autoImplicit false

namespace MarkdownServer.Wiki.Cleanup

open Markdown (Only Solid)
open Text (isBlank)

def Bold (text : List Char) : Prop :=
  ∃ inner rest, text = '*' :: '*' :: (inner ++ '*' :: '*' :: rest) ∧ '\n' ∉ inner ∧
    (inner.head?.any fun c => !isBlank c) = true ∧ (inner.getLast?.any fun c => !isBlank c) = true

theorem bold_to_closed (acc inner rest : List Char) (line : '\n' ∉ inner)
    (solid : ((inner.reverse ++ acc).head?.any fun c => !isBlank c) = true) :
    (boldTo acc (inner ++ '*' :: '*' :: rest)).isSome = true := by
  induction inner generalizing acc with
  | nil =>
      have solid' : (acc.head?.any fun c => !isBlank c) = true := solid
      rw [List.nil_append, boldTo, if_pos solid']
      rfl
  | cons c inner ih =>
      have solid' : ((inner.reverse ++ c :: acc).head?.any fun c => !isBlank c) = true := by
        simpa using solid
      obtain ⟨own, others⟩ := not_or.mp (mt List.mem_cons.mpr line)
      have next := ih (c :: acc) others solid'
      by_cases double : ∃ rest', c :: (inner ++ '*' :: '*' :: rest) = '*' :: '*' :: rest'
      · -- Two asterisks end the text already, or are part of it.
        obtain ⟨rest', same⟩ := double
        obtain ⟨rfl, behind⟩ := List.cons.inj same
        rw [behind] at next
        rw [List.cons_append, behind, boldTo]
        split
        · rfl
        · exact next
      · rw [List.cons_append, boldTo, if_neg (Ne.symm own)]
        · exact next
        · rintro rest' rfl same
          exact double ⟨rest', by rw [same]⟩

theorem bold_to_found (acc text found rest : List Char) (closed : boldTo acc text = some (found, rest))
    (line : '\n' ∉ acc) : '\n' ∉ found ∧ (found.head?.any fun c => !isBlank c) = true := by
  fun_induction boldTo acc text with
  | case1 acc rest' solid =>
      cases closed
      exact ⟨line, solid⟩
  | case2 acc rest' _ ih => exact ih closed (by simpa using line)
  | case3 => cases closed
  | case4 acc c rest' _ solid ih => exact ih closed (by simpa [Ne.symm solid] using line)
  | case5 => cases closed

theorem bold_iff (text : List Char) : (bold? text).isSome = true ↔ Bold text := by
  constructor
  · intro bold
    obtain ⟨⟨found, rest⟩, closed⟩ := Option.isSome_iff_exists.mp bold
    have enclosed := bold_text text found rest closed
    unfold bold? at closed
    split at closed
    · rename_i c text'
      split at closed
      · cases closed
      · rename_i solid
        have fresh : '\n' ∉ [c] := by
          intro member
          rw [← List.mem_singleton.mp member] at solid
          exact solid (by decide)
        obtain ⟨line, last⟩ := bold_to_found [c] text' found rest closed fresh
        refine ⟨found.reverse, rest, enclosed, by simpa using line, ?_, by simpa using last⟩
        have joined := bold_to_text [c] text' found rest closed
        cases inner : found.reverse with
        | nil =>
            rw [List.reverse_eq_nil_iff.mp inner] at last
            cases last
        | cons d inner' =>
            rw [inner] at joined
            obtain ⟨rfl, -⟩ := List.cons.inj joined
            simpa using solid
    · cases closed
  · rintro ⟨inner, rest, rfl, line, first, last⟩
    cases inner with
    | nil => cases first
    | cons c inner =>
        have solid : ¬ isBlank c = true := by simpa using first
        rw [List.cons_append, bold?, if_neg solid]
        refine bold_to_closed [c] inner rest (fun member => line (List.mem_cons_of_mem c member)) ?_
        rwa [← List.reverse_cons, List.head?_reverse]

-- Whether a text is closed on its line, and where, does not depend on what follows the line.
theorem bold_to_line (acc front rest : List Char) :
    boldTo acc (front ++ '\n' :: rest) =
      (boldTo acc front).map fun found => (found.1, found.2 ++ '\n' :: rest) := by
  fun_induction boldTo acc front with
  | case1 acc rest' solid => simp [boldTo, solid]
  | case2 acc rest' blank ih => simpa [boldTo, blank] using ih
  | case3 acc rest' single => 
      rw [List.cons_append, boldTo, if_pos rfl]
      · rfl
      · simp
  | case4 acc c rest' single solid ih =>
      rw [List.cons_append, boldTo, if_neg solid, ih]
      rintro rest'' rfl same
      cases rest' with
      | nil => cases same
      | cons d rest' => exact single rest' rfl (by simp at same; rw [same.1])
  | case5 acc =>
      rw [List.nil_append, boldTo, if_pos rfl]
      · rfl
      · simp

theorem bold_single (text : List Char) (single : ∀ more, text ≠ '*' :: '*' :: more) :
    bold? text = none := by
  unfold bold?
  split
  · exact absurd rfl (single _)
  · rfl

theorem bold_line (front rest : List Char) :
    bold? (front ++ '\n' :: rest) = (bold? front).map fun found => (found.1, found.2 ++ '\n' :: rest) := by
  by_cases double : ∃ more, front = '*' :: '*' :: more
  · obtain ⟨more, rfl⟩ := double
    cases more with
    | nil => rfl
    | cons c more =>
        rw [List.cons_append, List.cons_append, List.cons_append, bold?, bold?]
        split
        · rfl
        · exact bold_to_line [c] more rest
  · have single (more : List Char) : front ++ '\n' :: rest ≠ '*' :: '*' :: more := by
      intro same
      match front with
      | [] => cases same
      | [c] => cases same
      | c :: d :: front =>
          cases same
          exact double ⟨front, rfl⟩
    rw [bold_single _ single, bold_single front fun more same => double ⟨more, same⟩]
    rfl

theorem single_asterisks_done (done text : List Char) :
    singleAsterisks done text = done.reverse ++ singleAsterisks [] text := by
  match text with
  | [] => simp [singleAsterisks]
  | c :: text =>
      rw [singleAsterisks, singleAsterisks]
      split
      · rename_i inner rest found
        have shorter : rest.length < (c :: text).length := bold_shorter _ _ _ found
        rw [single_asterisks_done, single_asterisks_done ('*' :: (inner ++ ['*'])) rest]
        simp
      · rw [single_asterisks_done, single_asterisks_done [c] text]
        simp
termination_by text.length
decreasing_by all_goals (simp only [List.length_cons] at *; omega)

theorem single_asterisks_bold (text inner rest : List Char) (found : bold? text = some (inner, rest)) :
    singleAsterisks [] text = '*' :: (inner.reverse ++ '*' :: singleAsterisks [] rest) := by
  cases text with
  | nil => cases found
  | cons c text =>
      rw [singleAsterisks]
      split
      · rename_i inner' rest' found'
        rw [found] at found'
        cases found'
        rw [single_asterisks_done]
        simp
      · rename_i none
        rw [found] at none
        cases none

theorem single_asterisks_plain (c : Char) (text : List Char) (plain : bold? (c :: text) = none) :
    singleAsterisks [] (c :: text) = c :: singleAsterisks [] text := by
  rw [singleAsterisks]
  split
  · rename_i found
    rw [plain] at found
    cases found
  · exact single_asterisks_done [c] text

theorem single_asterisks_line (front rest : List Char) :
    singleAsterisks [] (front ++ '\n' :: rest) =
      singleAsterisks [] front ++ '\n' :: singleAsterisks [] rest := by
  have line := bold_line front rest
  cases found : bold? front with
  | some split =>
      obtain ⟨inner, left⟩ := split
      have shorter : left.length < front.length := bold_shorter _ _ _ found
      rw [found] at line
      rw [single_asterisks_bold _ _ _ line, single_asterisks_bold _ _ _ found,
        single_asterisks_line left rest]
      simp
  | none =>
      rw [found] at line
      cases front with
      | nil => rw [List.nil_append, single_asterisks_plain _ _ line, singleAsterisks]; rfl
      | cons c front =>
          rw [List.cons_append] at line
          rw [List.cons_append, single_asterisks_plain _ _ line, single_asterisks_plain _ _ found,
            single_asterisks_line front rest]
          rfl
termination_by front.length

theorem limit_line_ends_done (done : List Char) (count : Nat) (text : List Char) :
    limitLineEnds done count text = done.reverse ++ limitLineEnds [] count text := by
  induction text generalizing done count with
  | nil => simp [limitLineEnds]
  | cons c text ih =>
      by_cases feed : c = '\n'
      · by_cases short : count < 2
        · rw [limitLineEnds, limitLineEnds, if_pos feed, if_pos feed, if_pos short, if_pos short,
            ih (c :: done), ih [c]]
          simp
        · rw [limitLineEnds, limitLineEnds, if_pos feed, if_pos feed, if_neg short, if_neg short, ih done]
      · rw [limitLineEnds, limitLineEnds, if_neg feed, if_neg feed, ih (c :: done), ih [c]]
        simp

theorem limit_line_ends_behind (done : List Char) (count : Nat) (front rest : List Char) (c : Char)
    (solid : c ≠ '\n') :
    limitLineEnds done count (front ++ c :: rest) =
      limitLineEnds done count front ++ c :: limitLineEnds [] 0 rest := by
  induction front generalizing done count with
  | nil =>
      simp [limitLineEnds, solid, limit_line_ends_done (c :: done)]
  | cons d front ih =>
      rw [List.cons_append, limitLineEnds, limitLineEnds]
      split
      · exact ih _ _
      · exact ih _ _

theorem limit_line_ends_feed (done : List Char) (count : Nat) (text : List Char)
    (run : 0 < count → done.head? = some '\n') :
    (limitLineEnds done count (text ++ ['\n'])).getLast? = some '\n' := by
  induction text generalizing done count with
  | nil =>
      by_cases short : count < 2
      · simp [limitLineEnds, short]
      · simpa [limitLineEnds, short] using run (by omega)
  | cons c text ih =>
      rw [List.cons_append, limitLineEnds]
      split
      · rename_i feed
        apply ih
        intro _
        by_cases short : count < 2
        · simp [short, feed]
        · simpa [short] using run (by omega)
      · exact ih _ 0 (by simp)

theorem digits_line (front rest : List Char) :
    (front ++ '\n' :: rest).takeWhile Char.isDigit = front.takeWhile Char.isDigit := by
  induction front with
  | nil => rfl
  | cons c front ih => simp [List.takeWhile_cons, ih]

theorem placeholder_line (front rest : List Char) :
    placeholder? (front ++ '\n' :: rest) = placeholder? front := by
  have within : (front.takeWhile Char.isDigit).length ≤ front.length :=
    (List.takeWhile_sublist _).length_le
  have next : (((front ++ '\n' :: rest).drop (front.takeWhile Char.isDigit).length).head? ==
      some '\x00') = ((front.drop (front.takeWhile Char.isDigit).length).head? == some '\x00') := by
    rw [List.drop_append_of_le_length within]
    cases front.drop (front.takeWhile Char.isDigit).length with
    | nil => rfl
    | cons c left => rfl
  unfold placeholder?
  rw [digits_line]
  dsimp only
  rw [next]

theorem placeholder_within (text : List Char) (index length : Nat)
    (found : placeholder? text = some (index, length)) : length ≤ text.length := by
  unfold placeholder? at found
  dsimp only at found
  split at found
  · rename_i closed
    obtain ⟨-, closed⟩ := Bool.and_eq_true_iff.mp closed
    cases found
    cases left : text.drop (text.takeWhile Char.isDigit).length with
    | nil =>
        rw [left] at closed
        cases closed
    | cons c left' =>
        have count := congrArg List.length left
        rw [List.length_drop, List.length_cons] at count
        omega
  · cases found

section
variable (kept : Array (List Char))

theorem restore_done (done text : List Char) :
    restore kept done text = done.reverse ++ restore kept [] text := by
  match text with
  | [] => simp [restore]
  | c :: text =>
      rw [restore, restore]
      split
      · rename_i index length found
        rw [restore_done, restore_done ((kept.getD index []).reverse ++ [])]
        simp
      · rw [restore_done, restore_done [c]]
        simp
termination_by text.length
decreasing_by all_goals simp +arith

theorem restore_plain (c : Char) (text : List Char)
    (plain : (if c = '\x00' then placeholder? text else none) = none) :
    restore kept [] (c :: text) = c :: restore kept [] text := by
  rw [restore, plain]
  exact restore_done kept [c] text

theorem restore_piece (text : List Char) (index length : Nat)
    (found : placeholder? text = some (index, length)) :
    restore kept [] ('\x00' :: text) = kept.getD index [] ++ restore kept [] (text.drop length) := by
  rw [restore, if_pos rfl, found]
  dsimp only
  rw [restore_done]
  simp

theorem restore_line (front rest : List Char) :
    restore kept [] (front ++ '\n' :: rest) = restore kept [] front ++ '\n' :: restore kept [] rest := by
  match front with
  | [] =>
      rw [List.nil_append, restore_plain kept _ _ rfl, restore]
      rfl
  | c :: front =>
      rw [List.cons_append]
      cases read : (if c = '\x00' then placeholder? front else none) with
      | none =>
          have read' : (if c = '\x00' then placeholder? (front ++ '\n' :: rest) else none) = none := by
            rw [placeholder_line, read]
          rw [restore_plain kept c _ read, restore_plain kept c _ read', restore_line front rest]
          rfl
      | some found =>
          obtain ⟨index, length⟩ := found
          obtain ⟨rfl, found⟩ := Option.ite_none_right_eq_some.mp read
          have within := placeholder_within front index length found
          have found' : placeholder? (front ++ '\n' :: rest) = some (index, length) := by
            rw [placeholder_line, found]
          rw [restore_piece kept _ _ _ found, restore_piece kept _ _ _ found',
            List.drop_append_of_le_length within, restore_line (front.drop length) rest]
          simp
termination_by front.length
decreasing_by all_goals simp +arith

theorem restore_solid (front rest : List Char) (solid : Only Solid front) :
    restore kept [] (front ++ rest) = front ++ restore kept [] rest := by
  induction front with
  | nil => rfl
  | cons c front ih =>
      obtain ⟨own, others⟩ := (Markdown.only_cons _ _).mp solid
      have plain : c ≠ '\x00' := own
      rw [List.cons_append, restore, if_neg plain]
      dsimp only
      rw [restore_done, ih others]
      rfl

end

def WholeLines (text : List Char) : Prop := text = [] ∨ ∃ lines, text = lines ++ ['\n']

theorem whole_suffix (text tail : List Char) (whole : WholeLines text) (suffix : tail <:+ text) :
    WholeLines tail := by
  obtain rfl | ⟨lines, rfl⟩ := whole
  · exact .inl (List.suffix_nil.mp suffix)
  · obtain nothing | ⟨lines', same, -⟩ := List.suffix_concat_iff.mp suffix
    · exact .inl nothing
    · exact .inr ⟨lines', by simpa using same⟩

theorem single_asterisks_whole (text : List Char) (whole : WholeLines text) :
    WholeLines (singleAsterisks [] text) ∧
      ∀ rest, singleAsterisks [] (text ++ rest) = singleAsterisks [] text ++ singleAsterisks [] rest := by
  have empty : singleAsterisks [] [] = [] := by rw [singleAsterisks]; rfl
  obtain rfl | ⟨lines, rfl⟩ := whole
  · rw [empty]
    exact ⟨.inl rfl, fun rest => rfl⟩
  · have ended := single_asterisks_line lines []
    rw [empty] at ended
    refine ⟨.inr ⟨_, ended⟩, fun rest => ?_⟩
    rw [ended, List.append_assoc, List.singleton_append, single_asterisks_line lines rest]
    simp

theorem limit_line_ends_whole (text : List Char) (whole : WholeLines text) :
    WholeLines (limitLineEnds [] 0 text) := by
  obtain rfl | ⟨lines, rfl⟩ := whole
  · exact .inl rfl
  · have ended := limit_line_ends_feed [] 0 lines (fun run => absurd run (Nat.lt_irrefl 0))
    exact .inr (List.getLast?_eq_some_iff.mp ended)

theorem restore_whole (kept : Array (List Char)) (text : List Char) (whole : WholeLines text) :
    WholeLines (restore kept [] text) ∧
      ∀ rest, restore kept [] (text ++ rest) = restore kept [] text ++ restore kept [] rest := by
  have empty : restore kept [] [] = [] := by rw [restore]; rfl
  obtain rfl | ⟨lines, rfl⟩ := whole
  · rw [empty]
    exact ⟨.inl rfl, fun rest => rfl⟩
  · have ended := restore_line kept lines []
    rw [empty] at ended
    refine ⟨.inr ⟨_, ended⟩, fun rest => ?_⟩
    rw [ended, List.append_assoc, List.singleton_append, restore_line kept lines rest]
    simp

def passes (kept : Array (List Char)) (raw : List Char) : List Char :=
  restore kept [] (limitLineEnds [] 0 (singleAsterisks [] raw))

theorem passes_whole (kept : Array (List Char)) (text rest : List Char) (whole : WholeLines text)
    (c : Char) (more : List Char) (next : singleAsterisks [] rest = c :: more) (solid : c ≠ '\n') :
    WholeLines (passes kept text) ∧ passes kept (text ++ rest) = passes kept text ++ passes kept rest := by
  obtain ⟨single, split⟩ := single_asterisks_whole text whole
  obtain ⟨restored, split'⟩ := restore_whole kept _ (limit_line_ends_whole _ single)
  refine ⟨restored, ?_⟩
  have limited := limit_line_ends_behind [] 0 (singleAsterisks [] text) more c solid
  have alone : limitLineEnds [] 0 (c :: more) = c :: limitLineEnds [] 0 more :=
    limit_line_ends_behind [] 0 [] more c solid
  unfold passes
  rw [split, next, limited, alone, split']

end MarkdownServer.Wiki.Cleanup
