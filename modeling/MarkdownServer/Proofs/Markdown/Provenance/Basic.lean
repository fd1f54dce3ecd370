import MarkdownServer.Markdown.Container
/- Where the characters of a document come from: a kind of characters that the source does not leave,
   the document does not leave either. Here are the lines of the source and the cursor on them. -/
set_option autoImplicit false

namespace MarkdownServer.Markdown

def Only (P : Char → Prop) (cs : List Char) : Prop := ∀ c ∈ cs, P c

-- Apart from what stands in the source, a reader makes spaces and line ends, and what a reference
-- stands for.
structure Kind (P : Char → Prop) : Prop where
  space : P ' '
  feed : P '\n'
  carriage : P '\r'
  reference : P '&' → ∀ text characters length,
    Entity.read text = some (characters, length) → Only P characters

section
variable {P : Char → Prop}

@[simp]
theorem only_nil : Only P [] := fun _ member => nomatch member

@[simp]
theorem only_cons (c : Char) (cs : List Char) : Only P (c :: cs) ↔ P c ∧ Only P cs :=
  List.forall_mem_cons

@[simp]
theorem only_append (cs ds : List Char) : Only P (cs ++ ds) ↔ Only P cs ∧ Only P ds :=
  List.forall_mem_append

@[simp]
theorem only_reverse (cs : List Char) : Only P cs.reverse ↔ Only P cs := by
  simp [Only]

theorem only_subset (cs ds : List Char) (subset : ds ⊆ cs) (only : Only P cs) : Only P ds :=
  fun c member => only c (subset member)

theorem only_suffix (cs ds : List Char) (suffix : ds <:+ cs) (only : Only P cs) : Only P ds :=
  only_subset cs ds suffix.subset only

theorem only_drop (count : Nat) (cs : List Char) (only : Only P cs) : Only P (cs.drop count) :=
  only_subset _ _ (List.drop_subset count cs) only

theorem only_take (count : Nat) (cs : List Char) (only : Only P cs) : Only P (cs.take count) :=
  only_subset _ _ (List.take_subset count cs) only

theorem only_drop_while (drops : Char → Bool) (cs : List Char) (only : Only P cs) :
    Only P (cs.dropWhile drops) :=
  only_subset _ _ (List.dropWhile_sublist drops).subset only

theorem only_take_while (takes : Char → Bool) (cs : List Char) (only : Only P cs) :
    Only P (cs.takeWhile takes) :=
  only_subset _ _ (List.takeWhile_sublist takes).subset only

theorem only_drop_trailing (drops : Char → Bool) (cs : List Char) (only : Only P cs) :
    Only P (dropTrailing drops cs) := by
  rw [dropTrailing, only_reverse]
  exact only_drop_while drops _ ((only_reverse cs).mpr only)

theorem only_replicate (count : Nat) (c : Char) (kind : P c) : Only P (List.replicate count c) := by
  intro d member
  rw [List.eq_of_mem_replicate member]
  exact kind

theorem only_flatten (pieces : List (List Char)) (only : ∀ piece ∈ pieces, Only P piece) :
    Only P pieces.flatten := by
  intro c member
  obtain ⟨piece, inside, found⟩ := List.mem_flatten.mp member
  exact only piece inside c found

def LinesOnly (P : Char → Prop) (lines : List Line) : Prop := ∀ line ∈ lines, Only P line.text

theorem lines_only_tail (line : Line) (lines : List Line) (only : LinesOnly P (line :: lines)) :
    Only P line.text ∧ LinesOnly P lines :=
  List.forall_mem_cons.mp only

theorem lines_only_drop (count : Nat) (lines : List Line) (only : LinesOnly P lines) :
    LinesOnly P (lines.drop count) :=
  fun line member => only line (List.mem_of_mem_drop member)

theorem lines_only_push (text : List Char) (ending : LineEnd) (done : List Line)
    (current : Only P text) (earlier : LinesOnly P done) :
    LinesOnly P (⟨text.reverse, ending⟩ :: done) :=
  List.forall_mem_cons.mpr ⟨(only_reverse text).mpr current, earlier⟩

theorem line_split_only (text : List Char) (done : List Line) (source : List Char)
    (current : Only P text) (earlier : LinesOnly P done) (only : Only P source) :
    LinesOnly P (Line.split text done source) := by
  fun_induction Line.split text done source with
  | case1 text done =>
      intro line member
      rw [List.mem_reverse] at member
      split at member
      · exact earlier line member
      · exact lines_only_push text .absent done current earlier line member
  | case2 text done rest ih =>
      simp only [only_cons] at only
      exact ih only_nil (lines_only_push text .crlf done current earlier) only.2.2
  | case3 text done rest _ ih =>
      exact ih only_nil (lines_only_push text .cr done current earlier) ((only_cons _ _).mp only).2
  | case4 text done rest ih =>
      exact ih only_nil (lines_only_push text .lf done current earlier) ((only_cons _ _).mp only).2
  | case5 text done c rest _ _ _ ih =>
      obtain ⟨first, rest⟩ := (only_cons _ _).mp only
      exact ih ((only_cons _ _).mpr ⟨first, current⟩) earlier rest

theorem line_end_only (kind : Kind P) (ending : LineEnd) : Only P ending.chars := by
  cases ending <;> simp [LineEnd.chars, kind.feed, kind.carriage]

theorem through_feed_only (kind : Kind P) (text : List Char) (ending : LineEnd) (lines : List Line)
    (only : Only P text) (rest : LinesOnly P lines) :
    Only P (Line.throughFeed text ending lines).1 := by
  induction lines generalizing text ending with
  | nil => simp [Line.throughFeed, only, line_end_only kind ending]
  | cons line lines ih =>
      obtain ⟨first, rest⟩ := lines_only_tail line lines rest
      cases ending with
      | cr => simp [Line.throughFeed, only, kind.carriage, ih line.text line.ending first rest]
      | _ => simp [Line.throughFeed, only, line_end_only kind]

end

namespace Cursor

theorem spaces_suffix (count : Nat) (c : Cursor) : (c.spaces count).2.rest <:+ c.rest := by
  fun_induction Cursor.spaces count c with
  | case1 c => exact List.suffix_refl _
  | case2 count c owed taken c' moved ih =>
      rw [moved] at ih
      exact ih
  | case3 count c owed rest same taken c' moved ih =>
      rw [moved] at ih
      rw [same]
      exact ih.trans (List.suffix_cons _ _)
  | case4 count c owed rest same width taken c' moved ih =>
      rw [moved] at ih
      rw [same]
      exact ih.trans (List.suffix_cons _ _)
  | case5 => exact List.suffix_refl _

theorem skip_spaces_suffix (c : Cursor) : c.skipSpaces.rest <:+ c.rest :=
  List.dropWhile_suffix _

theorem advance_suffix (c : Cursor) (count : Nat) : (c.advance count).rest <:+ c.rest :=
  List.drop_suffix count c.rest

theorem passed_only {P : Char → Prop} (c : Cursor) (line : Line) (only : Only P line.text) :
    Only P (c.passed line) :=
  only_take _ _ only

end Cursor

theorem quote_marker_suffix (c behind : Cursor) (found : quoteMarker? c = some behind) :
    behind.rest <:+ c.rest := by
  unfold quoteMarker? at found
  split at found
  · cases found
    exact (Cursor.spaces_suffix 1 _).trans (Cursor.advance_suffix c 1)
  · cases found

theorem task_marker_suffix (c behind : Cursor) (ending : LineEnd) (done : Bool)
    (found : taskMarker? c ending = some (done, behind)) : behind.rest <:+ c.rest := by
  unfold taskMarker? at found
  have left := Cursor.spaces_suffix 3 c
  generalize c.spaces 3 = moved at found left
  obtain ⟨taken, c'⟩ := moved
  dsimp only at found left
  split at found
  · split at found
    · obtain ⟨_, same⟩ := Option.ite_none_right_eq_some.mp found
      cases same
      exact (Cursor.advance_suffix c' 3).trans left
    · cases found
  · cases found

theorem list_marker_suffix (outer : Nat) (c behind : Cursor) (marker : ListMarker)
    (found : ListMarker.scan outer c = some (marker, behind)) : behind.rest <:+ c.rest := by
  unfold ListMarker.scan at found
  obtain ⟨⟨width, mark, start⟩, _, found⟩ := Option.bind_eq_some_iff.mp found
  dsimp only at found
  split at found
  · cases found
  have one := (Cursor.spaces_suffix 1 (c.advance width)).trans (Cursor.advance_suffix c width)
  generalize (c.advance width).spaces 1 = moved at found one
  obtain ⟨space, c'⟩ := moved
  dsimp only at found one
  split at found
  · split at found
    · cases found
      exact one
    · have four := (Cursor.spaces_suffix 4 c').trans one
      generalize c'.spaces 4 = moved at found four
      obtain ⟨more, c''⟩ := moved
      dsimp only at found four
      split at found
      · cases found
        exact four
      · cases found
        exact one
  · cases found

theorem enter_suffix (frame : Frame) (c inner : Cursor) (entered : frame.enter c = some inner) :
    inner.rest <:+ c.rest := by
  unfold Frame.enter at entered
  split at entered
  · exact (quote_marker_suffix _ inner entered).trans (Cursor.spaces_suffix 3 c)
  · rename_i indent blocks
    have left := Cursor.spaces_suffix indent c
    generalize c.spaces indent = moved at entered left
    obtain ⟨taken, c'⟩ := moved
    dsimp only at entered left
    split at entered
    · cases entered
      exact left
    · cases entered
  · cases entered
    exact List.suffix_refl _

theorem enter_all_suffix (frames : List Frame) (c : Cursor) :
    (Frame.enterAll frames c).2.rest <:+ c.rest := by
  induction frames generalizing c with
  | nil => exact List.suffix_refl _
  | cons frame frames ih =>
      rw [Frame.enterAll]
      cases entered : frame.enter c with
      | none => exact List.suffix_refl _
      | some inner => exact (ih inner).trans (enter_suffix frame c inner entered)

theorem enter_all_only {P : Char → Prop} (frames : List Frame) (line : Line)
    (only : Only P line.text) : Only P (Frame.enterAll frames (.start line)).2.rest :=
  only_suffix _ _ (enter_all_suffix frames (.start line)) only

end MarkdownServer.Markdown
