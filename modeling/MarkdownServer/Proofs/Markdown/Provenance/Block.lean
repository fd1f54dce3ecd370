import MarkdownServer.Markdown.Parse
import MarkdownServer.Proofs.Markdown.Provenance.Inline
/- The blocks of a document hold no other kind of characters than the source. Every line that is read
   keeps what the builder has so far to the kind. -/
set_option autoImplicit false

namespace MarkdownServer.Markdown

inductive Block.Made (P : Char → Prop) {ι : Type} (Q : ι → Prop) : Block ι → Prop where
  | paragraph (content : ι) (inside : Q content) : Made P Q (.paragraph content)
  | tight (content : ι) (inside : Q content) : Made P Q (.tight content)
  | heading (level : Nat) (content : ι) (inside : Q content) : Made P Q (.heading level content)
  | quote (children : List (Block ι)) (inside : ∀ child ∈ children, Made P Q child) :
      Made P Q (.quote children)
  | list (start : Option Nat) (items : List (List (Block ι)))
      (inside : ∀ item ∈ items, ∀ child ∈ item, Made P Q child) : Made P Q (.list start items)
  | code (info : Option String) (content : String) (only : Only P content.toList) :
      Made P Q (.code info content)
  | html (lines : List HtmlLine) (only : ∀ line ∈ lines, Only P line.content.toList) :
      Made P Q (.html lines)
  | rule : Made P Q .rule
  | table (columns : List Alignment) (head : List ι) (rows : List (List ι))
      (first : ∀ cell ∈ head, Q cell) (rest : ∀ row ∈ rows, ∀ cell ∈ row, Q cell) :
      Made P Q (.table columns head rows)

def DraftMade (P : Char → Prop) (draft : Draft) : Prop := draft.Made P (Content.Made P)

def DraftsMade (P : Char → Prop) (drafts : List Draft) : Prop := ∀ draft ∈ drafts, DraftMade P draft

def Document.Made (P : Char → Prop) (document : Document) : Prop :=
  ∀ block ∈ document, block.Made P (MadeAll P)

def Frame.Made (P : Char → Prop) : Frame → Prop
  | .quote blocks => DraftsMade P blocks
  | .item _ blocks => DraftsMade P blocks
  | .list _ _ _ items => ∀ item ∈ items, DraftsMade P item

structure Builder.Made (P : Char → Prop) (b : Builder) : Prop where
  spine : ∀ frame ∈ b.spine, frame.Made P
  blocks : DraftsMade P b.blocks
  references : ReferencesMade P b.references

section
variable {P : Char → Prop}

theorem drafts_made_nil : DraftsMade P [] := fun _ member => nomatch member

theorem drafts_made_cons (draft : Draft) (drafts : List Draft) :
    DraftsMade P (draft :: drafts) ↔ DraftMade P draft ∧ DraftsMade P drafts :=
  List.forall_mem_cons

theorem drafts_made_reverse (drafts : List Draft) : DraftsMade P drafts.reverse ↔ DraftsMade P drafts := by
  simp [DraftsMade]

theorem tighten_made (draft : Draft) (made : DraftMade P draft) : DraftMade P draft.tighten := by
  cases made with
  | paragraph content inside => exact .tight content inside
  | tight content inside => exact .tight content inside
  | heading level content inside => exact .heading level content inside
  | quote children inside => exact .quote children inside
  | list start items inside => exact .list start items inside
  | code info content only => exact .code info content only
  | html lines only => exact .html lines only
  | rule => exact .rule
  | table columns head rows first rest => exact .table columns head rows first rest

theorem content_made (text : List Char) (before : Option Char) (cell : Bool) (only : Only P text) :
    Content.Made P { text, before, cell } :=
  ⟨only, fun _ member => (nomatch member), only_nil⟩

namespace Builder

theorem add_made (b : Builder) (draft : Draft) (made : b.Made P) (new : DraftMade P draft) :
    (b.add draft).Made P := by
  obtain ⟨spine, blocks, references⟩ := made
  unfold add
  split
  · exact ⟨spine, (drafts_made_cons _ _).mpr ⟨new, blocks⟩, references⟩
  all_goals
    rename_i frames
    rw [frames] at spine
    obtain ⟨top, rest⟩ := List.forall_mem_cons.mp spine
    refine ⟨List.forall_mem_cons.mpr ⟨?_, rest⟩, blocks, references⟩
  · exact (drafts_made_cons _ _).mpr ⟨new, top⟩
  · exact (drafts_made_cons _ _).mpr ⟨new, top⟩
  · exact List.forall_mem_cons.mpr ⟨(drafts_made_cons _ _).mpr ⟨new, drafts_made_nil⟩, top⟩

theorem add_all_made (drafts : List Draft) (b : Builder) (made : b.Made P)
    (new : DraftsMade P drafts) : (drafts.foldl add b).Made P := by
  induction drafts generalizing b with
  | nil => exact made
  | cons draft drafts ih =>
      obtain ⟨first, rest⟩ := (drafts_made_cons _ _).mp new
      exact ih (b.add draft) (add_made b draft made first) rest

theorem push_made (b : Builder) (frame : Frame) (made : b.Made P) (new : frame.Made P) :
    (b.push frame).Made P :=
  ⟨List.forall_mem_cons.mpr ⟨new, made.spine⟩, made.blocks, made.references⟩

theorem close_made (b : Builder) (made : b.Made P) : b.close.Made P := by
  obtain ⟨spine, blocks, references⟩ := made
  unfold close
  split
  · exact ⟨spine, blocks, references⟩
  · rename_i children rest frames
    rw [frames] at spine
    obtain ⟨top, rest⟩ := List.forall_mem_cons.mp spine
    exact add_made _ _ ⟨rest, blocks, references⟩ (.quote _ ((drafts_made_reverse _).mpr top))
  · rename_i indent children tight marker start items rest frames
    rw [frames] at spine
    obtain ⟨top, below⟩ := List.forall_mem_cons.mp spine
    obtain ⟨list, rest⟩ := List.forall_mem_cons.mp below
    have item := (drafts_made_reverse children).mpr top
    exact ⟨List.forall_mem_cons.mpr ⟨List.forall_mem_cons.mpr ⟨item, list⟩, rest⟩, blocks, references⟩
  · rename_i indent children rest _ frames
    rw [frames] at spine
    obtain ⟨top, rest⟩ := List.forall_mem_cons.mp spine
    exact add_all_made _ _ ⟨rest, blocks, references⟩ ((drafts_made_reverse children).mpr top)
  · rename_i tight marker start items rest frames
    rw [frames] at spine
    obtain ⟨top, rest⟩ := List.forall_mem_cons.mp spine
    have tightened : ∀ item ∈ (if tight then items.map (List.map Block.tighten) else items),
        DraftsMade P item := by
      split
      · intro item member
        obtain ⟨loose, inside, rfl⟩ := List.mem_map.mp member
        intro draft member
        obtain ⟨old, found, rfl⟩ := List.mem_map.mp member
        exact tighten_made old (top loose inside old found)
      · exact top
    exact add_made _ _ ⟨rest, blocks, references⟩
      (.list _ _ fun item member => tightened item (List.mem_reverse.mp member))

theorem close_many_made (count : Nat) (b : Builder) (made : b.Made P) : (b.closeMany count).Made P := by
  induction count generalizing b with
  | zero => exact made
  | succ count ih => exact ih b.close (close_made b made)

theorem end_bare_item_made (b : Builder) (made : b.Made P) : b.endBareItem.Made P := by
  unfold endBareItem
  dsimp only
  split
  · obtain ⟨spine, blocks, references⟩ := close_made b made
    exact ⟨spine, blocks, references⟩
  · exact ⟨made.spine, made.blocks, made.references⟩

theorem loosen_made (b : Builder) (made : b.Made P) : b.loosen.Made P := by
  unfold loosen
  split
  · rename_i top tight marker start items rest frames
    have spine := made.spine
    rw [frames] at spine
    obtain ⟨first, below⟩ := List.forall_mem_cons.mp spine
    obtain ⟨list, rest⟩ := List.forall_mem_cons.mp below
    refine ⟨List.forall_mem_cons.mpr ⟨first, List.forall_mem_cons.mpr ⟨list, rest⟩⟩, made.blocks, ?_⟩
    exact made.references
  · exact made

theorem end_list_made (b : Builder) (made : b.Made P) : b.endList.Made P := by
  have bare := end_bare_item_made b made
  have after (b : Builder) (made : b.Made P) :
      (if b.gap then { b.loosen with gap := false } else b).Made P := by
    split
    · obtain ⟨spine, blocks, references⟩ := loosen_made b made
      exact ⟨spine, blocks, references⟩
    · exact made
  unfold endList
  dsimp only
  split
  · exact after _ (close_made _ bare)
  · exact after _ bare

theorem begin_list_made (b : Builder) (marker : Char) (start : Nat) (made : b.Made P) :
    (b.beginList marker start).Made P := by
  have bare := end_bare_item_made b made
  obtain ⟨spine, blocks, references⟩ :=
    push_made b.endBareItem.endList (.list true marker start []) (end_list_made _ bare)
      (fun _ member => nomatch member)
  unfold beginList
  dsimp only
  split
  · rename_i tight marker' start' items rest frames
    split
    · split
      · have spine := bare.spine
        rw [frames] at spine
        obtain ⟨top, rest⟩ := List.forall_mem_cons.mp spine
        exact ⟨List.forall_mem_cons.mpr ⟨top, rest⟩, bare.blocks, bare.references⟩
      · exact bare
    · exact ⟨spine, blocks, references⟩
  · exact ⟨spine, blocks, references⟩

theorem blank_line_made (b : Builder) (made : b.Made P) : b.blankLine.Made P := by
  unfold blankLine
  split
  · exact made
  · rename_i indent children rest frames
    split
    · have spine := made.spine
      rw [frames] at spine
      obtain ⟨top, rest⟩ := List.forall_mem_cons.mp spine
      exact ⟨List.forall_mem_cons.mpr ⟨top, rest⟩, made.blocks, made.references⟩
    · exact ⟨made.spine, made.blocks, made.references⟩
  · exact ⟨made.spine, made.blocks, made.references⟩

theorem finish_made (b : Builder) (made : b.Made P) : DraftsMade P b.finish :=
  (drafts_made_reverse _).mpr (close_many_made b.spine.length b made).blocks

end Builder

mutual
theorem cells_from_only (text : List Char) (only : Only P text) :
    ∀ cell ∈ Table.cellsFrom text, Only P cell := by
  cases text with
  | nil => exact fun _ member => nomatch member
  | cons c rest =>
      obtain ⟨first, rest'⟩ := (only_cons _ _).mp only
      rw [Table.cellsFrom]
      split
      · exact List.forall_mem_cons.mpr ⟨only_nil, cells_from_only rest rest'⟩
      split
      · exact cells_from_only rest rest'
      · exact cell_to_only c [c] rest (by simpa using first) rest'

theorem cell_to_only (before : Char) (text rest : List Char) (current : Only P text)
    (only : Only P rest) : ∀ cell ∈ Table.cellTo before text rest, Only P cell := by
  have kept := (only_reverse _).mpr (only_drop_while isLineBlank text current)
  cases rest with
  | nil => exact List.forall_mem_cons.mpr ⟨kept, fun _ member => nomatch member⟩
  | cons c rest =>
      obtain ⟨first, rest'⟩ := (only_cons _ _).mp only
      rw [Table.cellTo]
      split
      · exact List.forall_mem_cons.mpr ⟨kept, cells_from_only rest rest'⟩
      · exact cell_to_only c (c :: text) rest (by simpa using ⟨first, current⟩) rest'
end

theorem cells_only (row : List Char) (only : Only P row) : ∀ cell ∈ Table.cells row, Only P cell := by
  unfold Table.cells
  split
  · exact cells_from_only _ ((only_cons _ _).mp only).2
  · exact cells_from_only row only

namespace Builder

theorem row_of_made (width : Nat) (text : List Char) (only : Only P text) :
    ∀ cell ∈ tableRows.rowOf width text, Content.Made P cell := by
  intro cell member
  obtain taken | padding := List.mem_append.mp member
  · obtain ⟨written, inside, rfl⟩ := List.mem_map.mp (List.mem_of_mem_take taken)
    exact content_made written _ true (cells_only text only written inside)
  · rw [List.eq_of_mem_replicate padding]
    exact content_made [] none true only_nil

theorem table_rows_made (frames : List Frame) (width : Nat) (done : List (List Content)) (count : Nat)
    (lines : List Line) (before : ∀ row ∈ done, ∀ cell ∈ row, Content.Made P cell)
    (only : LinesOnly P lines) :
    ∀ row ∈ (tableRows frames width done count lines).1, ∀ cell ∈ row, Content.Made P cell := by
  induction lines generalizing done count with
  | nil => exact fun row member => before row (List.mem_reverse.mp member)
  | cons line lines ih =>
      obtain ⟨first, rest⟩ := lines_only_tail line lines only
      have inner := enter_all_only frames line first
      rw [tableRows]
      generalize Frame.enterAll frames (.start line) = entered at inner ⊢
      obtain ⟨count', c⟩ := entered
      dsimp only at inner ⊢
      split
      · exact fun row member => before row (List.mem_reverse.mp member)
      · have text := only_suffix _ _ (Cursor.skip_spaces_suffix c) inner
        exact ih _ _ (List.forall_mem_cons.mpr ⟨row_of_made width _ text, before⟩) rest

theorem drop_return_only (text : List Char) (only : Only P text) : Only P (dropReturn text) := by
  unfold dropReturn
  split
  · rename_i c rest same
    have reversed := (only_reverse text).mpr only
    rw [same] at reversed
    simp only [only_cons] at reversed
    split
    · exact (only_reverse _).mpr ((only_cons _ _).mpr ⟨reversed.1, reversed.2.2⟩)
    · exact only
  · exact only

theorem verbatim_only (kind : Kind P) (c : Cursor) (line : Line) (following : List Line)
    (only : Only P c.rest) (below : LinesOnly P following) :
    Only P (verbatim c line following).2.1 :=
  drop_return_only _ (through_feed_only kind c.rest line.ending following only below)

theorem padded_only (kind : Kind P) (padding : Nat) (text : List Char) (only : Only P text) :
    Only P (padded padding text) :=
  (only_append _ _).mpr ⟨only_replicate padding ' ' kind.space, only⟩

theorem inner_only (frames : List Frame) (line : Line) (columns entered taken : Nat) (c c' : Cursor)
    (only : Only P line.text) (inside : Frame.enterAll frames (.start line) = (entered, c))
    (moved : c.spaces columns = (taken, c')) : Only P c'.rest := by
  have inner := enter_all_only frames line only
  have left := Cursor.spaces_suffix columns c
  rw [inside] at inner
  rw [moved] at left
  exact only_suffix _ _ left inner

theorem verbatim_read_only (kind : Kind P) (c : Cursor) (line : Line) (following : List Line)
    (padding more : Nat) (text : List Char) (only : Only P c.rest) (below : LinesOnly P following)
    (read : verbatim c line following = (padding, text, more)) : Only P text := by
  have := verbatim_only kind c line following only below
  rw [read] at this
  exact this

theorem indented_lines_only (kind : Kind P) (frames : List Frame) (done : List CodeLine) (count : Nat)
    (lines : List Line) (before : ∀ line ∈ done, Only P line.text) (only : LinesOnly P lines) :
    ∀ line ∈ (indentedLines frames done count lines).1, Only P line.text := by
  fun_induction indentedLines frames done count lines with
  | case1 => exact before
  | case2 => exact before
  | case3 done count line following entered c inside taken c' moved _ padding text more read ih =>
      obtain ⟨first, rest⟩ := lines_only_tail line following only
      have left := inner_only frames line 4 entered taken c c' first inside moved
      have new := verbatim_read_only kind c' line following padding more text left rest read
      exact ih (List.forall_mem_cons.mpr ⟨padded_only kind padding text new, before⟩)
        (lines_only_drop more following rest)

theorem indented_code_made (kind : Kind P) (b : Builder) (c : Cursor) (line : Line)
    (following : List Line) (made : b.Made P) (only : Only P c.rest) (below : LinesOnly P following) :
    (b.indentedCode c line following).1.Made P := by
  unfold indentedCode
  cases read : verbatim c line following with
  | mk padding behind =>
      obtain ⟨text, more⟩ := behind
      have new := verbatim_read_only kind c line following padding more text only below read
      have lines := indented_lines_only kind b.frames [⟨padded padding text, false⟩] more
        (following.drop more) (List.forall_mem_cons.mpr ⟨padded_only kind padding text new,
          fun _ member => nomatch member⟩) (lines_only_drop more following below)
      dsimp only
      generalize indentedLines b.frames [⟨padded padding text, false⟩] more (following.drop more) = found
        at lines ⊢
      obtain ⟨pieces, count⟩ := found
      dsimp only at lines ⊢
      refine add_made _ _ ⟨made.spine, made.blocks, made.references⟩ (.code none _ ?_)
      rw [String.toList_ofList]
      apply only_flatten
      intro piece member
      obtain ⟨line, found, rfl⟩ := List.mem_map.mp member
      exact lines line ((List.dropWhile_sublist _).mem (List.mem_reverse.mp found))

theorem fenced_lines_only (kind : Kind P) (frames : List Frame) (indent : Nat) (fence : Fence)
    (done : List (List Char)) (count : Nat) (lines : List Line) (before : ∀ piece ∈ done, Only P piece)
    (only : LinesOnly P lines) :
    ∀ piece ∈ (fencedLines frames indent fence done count lines).1, Only P piece := by
  fun_induction fencedLines frames indent fence done count lines with
  | case1 => exact before
  | case2 => exact before
  | case3 => exact before
  | case4 done count line following entered c inside _ left c' moved _ closing _ _ padding text more
      read ih =>
      obtain ⟨first, rest⟩ := lines_only_tail line following only
      have inner := inner_only frames line indent entered left c c' first inside moved
      have new := verbatim_read_only kind c' line following padding more text inner rest read
      exact ih (List.forall_mem_cons.mpr ⟨padded_only kind padding text new, before⟩)
        (lines_only_drop more following rest)

theorem fenced_code_made (kind : Kind P) (b : Builder) (c : Cursor) (indent : Nat) (fence : Fence)
    (line : Line) (following : List Line) (made : b.Made P) (below : LinesOnly P following) :
    (b.fencedCode c indent fence line following).1.Made P := by
  unfold fencedCode
  generalize Line.throughFeed (c.rest.drop fence.length) line.ending following = opening
  obtain ⟨opening, more⟩ := opening
  have pieces := fenced_lines_only kind b.frames indent fence [] more (following.drop more)
    (fun _ member => nomatch member) (lines_only_drop more following below)
  dsimp only
  generalize fencedLines b.frames indent fence [] more (following.drop more) = found at pieces ⊢
  obtain ⟨pieces', count⟩ := found
  dsimp only at pieces ⊢
  refine add_made _ _ made (.code _ _ ?_)
  rw [String.toList_ofList]
  exact only_flatten _ fun piece member => pieces piece (List.mem_reverse.mp member)

theorem html_lines_only (kind : Kind P) (frames : List Frame) (ending : HtmlEnd)
    (previous : List Char) (done : List HtmlLine) (count : Nat) (lines : List Line)
    (before : ∀ line ∈ done, Only P line.content.toList) (only : LinesOnly P lines) :
    ∀ line ∈ (htmlLines frames ending previous done count lines).1, Only P line.content.toList := by
  fun_induction htmlLines frames ending previous done count lines with
  | case1 => exact before
  | case2 => exact before
  | case3 previous done count line following entered c inside ended _ padding text more read ih =>
      obtain ⟨first, rest⟩ := lines_only_tail line following only
      have inner := enter_all_only frames line first
      rw [inside] at inner
      have new := verbatim_read_only kind c line following padding more text inner rest read
      exact ih (List.forall_mem_cons.mpr ⟨by simpa using new, before⟩)
        (lines_only_drop more following rest)

theorem html_block_made (kind : Kind P) (b : Builder) (c : Cursor) (indent : Nat) (ending : HtmlEnd)
    (line : Line) (following : List Line) (made : b.Made P) (only : Only P c.rest)
    (below : LinesOnly P following) : (b.htmlBlock c indent ending line following).1.Made P := by
  unfold htmlBlock
  cases read : verbatim c line following with
  | mk padding behind =>
      obtain ⟨text, more⟩ := behind
      have new := verbatim_read_only kind c line following padding more text only below read
      have lines := html_lines_only kind b.frames ending text [⟨indent, String.ofList text⟩] more
        (following.drop more) (List.forall_mem_cons.mpr ⟨by simpa using new,
          fun _ member => nomatch member⟩) (lines_only_drop more following below)
      dsimp only
      generalize htmlLines b.frames ending text [⟨indent, String.ofList text⟩] more
        (following.drop more) = found at lines ⊢
      obtain ⟨pieces, count⟩ := found
      exact add_made _ _ made (.html _ fun line member => lines line (List.mem_reverse.mp member))

theorem heading_text_only (text : List Char) (only : Only P text) : Only P (headingText text) := by
  have kept (drops : Char → Bool) (text : List Char) (only : Only P text) :=
    only_drop_trailing drops text only
  unfold headingText
  dsimp only
  split
  · exact only_nil
  split
  · exact kept _ _ (kept _ _ (kept _ _ only))
  · exact kept _ _ only

theorem heading_made (kind : Kind P) (b : Builder) (c : Cursor) (level : Nat) (line : Line)
    (following : List Line) (made : b.Made P) (only : Only P c.rest) (below : LinesOnly P following) :
    (b.heading c level line following).1.Made P := by
  unfold heading
  dsimp only
  split
  · exact add_made b _ made (.heading level _ (content_made [] none false only_nil))
  · have whole := through_feed_only kind ((c.rest.drop level).dropWhile isLineBlank) line.ending
      following (only_drop_while _ _ (only_drop level _ only)) below
    generalize Line.throughFeed ((c.rest.drop level).dropWhile isLineBlank) line.ending following = read
      at whole ⊢
    obtain ⟨whole', more⟩ := read
    have text := heading_text_only whole' whole
    exact add_made b _ made (.heading level _
      ⟨only_take_while _ _ text, fun _ member => (nomatch member), only_drop _ _ text⟩)

structure Gathered.Made (P : Char → Prop) (g : Gathered) : Prop where
  text : Only P g.text
  margins : ∀ margin ∈ g.margins, Only P margin.2

theorem gathered_line_made (kind : Kind P) (g : Gathered) (c : Cursor) (line : Line) (made : g.Made P)
    (only : Only P line.text) (inner : Only P c.rest) : (g.line c line).Made P := by
  refine ⟨?_, ?_⟩
  · have ending := line_end_only kind g.ending
    simp [Gathered.line, made.text, inner, ending]
  · intro margin member
    dsimp only [Gathered.line] at member
    split at member
    · exact made.margins margin member
    · obtain rfl | older := List.mem_cons.mp member
      · exact Cursor.passed_only c line only
      · exact made.margins margin older

theorem paragraph_lines_made (kind : Kind P) (frames : List Frame) (g : Gathered) (count : Nat)
    (lines : List Line) (made : g.Made P) (only : LinesOnly P lines) :
    (paragraphLines frames g count lines).1.Made P := by
  induction lines generalizing g count with
  | nil => exact made
  | cons line lines ih =>
      obtain ⟨first, rest⟩ := lines_only_tail line lines only
      have inner := enter_all_only frames line first
      rw [paragraphLines]
      generalize Frame.enterAll frames (.start line) = entered at inner ⊢
      obtain ⟨count', c⟩ := entered
      dsimp only at inner ⊢
      split
      · exact made
      · split
        · exact made
        · exact ih _ _ (gathered_line_made kind g c line made first inner) rest

theorem paragraph_made (kind : Kind P) (b : Builder) (c : Cursor) (before : Option Char)
    (task : Option Bool) (line : Line) (following : List Line) (made : b.Made P)
    (only : Only P c.rest) (below : LinesOnly P following) :
    (b.paragraph c before task line following).1.Made P := by
  unfold paragraph
  dsimp only
  split
  · rename_i columns _
    have rows := table_rows_made b.frames columns.length [] 1 (following.drop 1)
      (fun _ member => nomatch member) (lines_only_drop 1 following below)
    exact add_made b _ made (.table columns _ _ (row_of_made columns.length c.rest only) rows)
  · have lines := paragraph_lines_made kind b.frames ⟨c.rest.reverse, c.rest.length, [], line.ending⟩ 0
      following ⟨(only_reverse _).mpr only, fun _ member => nomatch member⟩ below
    generalize paragraphLines b.frames ⟨c.rest.reverse, c.rest.length, [], line.ending⟩ 0 following =
      read at lines ⊢
    obtain ⟨g, level, count⟩ := read
    have content : Content.Made P
        { text := (g.text.dropWhile isLineBlank).reverse
          margins := g.margins
          before
          task } :=
      ⟨(only_reverse _).mpr (only_drop_while _ _ lines.text), lines.margins, only_nil⟩
    cases level with
    | none => exact add_made b _ made (.paragraph _ content)
    | some level => exact add_made b _ made (.heading level _ content)

theorem label_only (frames : List Frame) (raw text : List Char) (lines : List Line)
    (result : List Char × List Char × List Line) (only : Only P text) (below : LinesOnly P lines)
    (found : Definition.label frames raw text lines = some result) :
    Only P result.2.1 ∧ LinesOnly P result.2.2 := by
  fun_induction Definition.label frames raw text lines with
  | case1 raw rest lines =>
      cases found
      exact ⟨((only_cons _ _).mp only).2, below⟩
  | case2 => cases found
  | case3 raw c rest lines ih =>
      simp only [only_cons] at only
      exact ih only.2.2 below found
  | case4 raw c rest lines _ _ _ ih => exact ih ((only_cons _ _).mp only).2 below found
  | case5 => cases found
  | case6 raw line lines count c inside _ ih =>
      obtain ⟨first, rest⟩ := lines_only_tail line lines below
      have inner := enter_all_only frames line first
      rw [inside] at inner
      exact ih inner rest found
  | case7 => cases found

theorem gap_only (frames : List Frame) (allowed : Nat) (text : List Char) (lines : List Line)
    (result : Nat × List Char × List Line) (only : Only P text) (below : LinesOnly P lines)
    (found : Definition.gap frames allowed text lines = some result) : Only P result.2.1 := by
  fun_induction Definition.gap frames allowed text lines generalizing result with
  | case1 allowed text lines c rest behind =>
      cases found
      have left := only_drop_while isLineBlank text only
      rw [behind] at left
      exact left
  | case2 => cases found
  | case3 text _ allowed line lines count c inside taken c' moved _ ih =>
      obtain ⟨first, rest⟩ := lines_only_tail line lines below
      have inner := inner_only frames line 4 count taken c c' first inside moved
      obtain ⟨further, read, same⟩ := Option.map_eq_some_iff.mp found
      cases same
      exact ih further inner rest read
  | case4 => cases found

theorem definition_url_only (kind : Kind P) (frames : List Frame) (text : List Char)
    (lines : List Line) (label : String) (target : Target) (left : List Line) (only : Only P text)
    (below : LinesOnly P lines) (found : Definition.read frames text lines = some (label, target, left)) :
    Only P target.url.toList := by
  unfold Definition.read at found
  split at found
  · rename_i text
    obtain ⟨⟨raw, text1, lines1⟩, labelled, found⟩ := Option.bind_eq_some_iff.mp found
    obtain ⟨name, _, found⟩ := Option.bind_eq_some_iff.mp found
    obtain ⟨only1, below1⟩ := label_only frames [] text lines _ ((only_cons _ _).mp only).2 below labelled
    dsimp only at found only1 below1
    split at found
    · rename_i text1 _
      obtain ⟨⟨ends, text2, lines2⟩, gap, found⟩ := Option.bind_eq_some_iff.mp found
      have only2 := gap_only frames 1 text1 lines1 _ ((only_cons _ _).mp only1).2 below1 gap
      obtain ⟨⟨url, length⟩, destination, found⟩ := Option.bind_eq_some_iff.mp found
      have address : Only P (String.ofList (unescape false url)).toList := by
        rw [String.toList_ofList]
        exact unescape_only kind false url (destination_only text2 url length only2 destination)
      -- With a title or without one, the address is the same.
      have untitled (ends : Nat) (same : (if ends = 0 then none
          else some (name, (⟨String.ofList (unescape false url), ""⟩ : Target), lines2)) =
            some (label, target, left)) : Only P target.url.toList := by
        split at same
        · cases same
        · cases same
          exact address
      dsimp only at found
      split at found
      · cases found
      split at found
      · exact untitled 1 found
      split at found
      · cases found
      split at found
      · split at found
        · cases found
          exact address
        · exact untitled _ found
      · exact untitled _ found
    · cases found
  · cases found

theorem references_insert (references : References) (label : String) (target : Target)
    (made : ReferencesMade P references) (url : Only P target.url.toList) :
    ReferencesMade P (references.insertIfNew label target) := by
  intro other found present
  rw [Std.HashMap.getElem?_insertIfNew] at present
  split at present
  · cases present
    exact url
  · exact made other found present

theorem definitions_made (kind : Kind P) (b : Builder) (c : Cursor) (before : Option Char)
    (line : Line) (following : List Line) (made : b.Made P) (only : Only P c.rest)
    (below : LinesOnly P following) : (b.definitions c before line following).1.Made P := by
  fun_induction definitions b c before line following with
  | case1 b c before line following missing =>
      exact paragraph_made kind b c before none line following made only below
  | case2 b c before line following label target left read b' count remaining =>
      have url := definition_url_only kind b.frames c.rest following label target left only below read
      exact ⟨made.spine, made.blocks, references_insert b.references label target made.references url⟩
  | case3 b c before line following label target left read b' count next rest remaining _ entered c'
      inside taken inner moved _ =>
      have url := definition_url_only kind b.frames c.rest following label target left only below read
      exact ⟨made.spine, made.blocks, references_insert b.references label target made.references url⟩
  | case4 b c before line following label target left read b' count next rest remaining _ entered c'
      inside taken inner moved _ c'' result more further ih =>
      have url := definition_url_only kind b.frames c.rest following label target left only below read
      have with_definition : b'.Made P :=
        ⟨made.spine, made.blocks, references_insert b.references label target made.references url⟩
      have lines := lines_only_drop count following below
      rw [remaining] at lines
      obtain ⟨first, rest'⟩ := lines_only_tail next rest lines
      have entered' := enter_all_only b'.frames next first
      rw [inside] at entered'
      rw [further] at ih
      exact ih with_definition (only_suffix _ _ (Cursor.skip_spaces_suffix c') entered') rest'

def Opened.Made (P : Char → Prop) : Opened → Prop
  | .nothing => True
  | .task _ c => Only P c.rest
  | .text c => Only P c.rest

theorem open_containers_made (ending : LineEnd) (fuel : Nat) (b : Builder) (c : Cursor)
    (made : b.Made P) (only : Only P c.rest) :
    (openContainers ending fuel b c).1.Made P ∧ (openContainers ending fuel b c).2.Made P := by
  fun_induction openContainers ending fuel b c with
  | case1 b c => exact ⟨made, only⟩
  | case2 b c fuel outer inner moved far => exact ⟨made, only⟩
  | case3 b c fuel outer inner moved _ marker behind scanned b' blank =>
      have item : b'.Made P :=
        push_made _ _ (begin_list_made b marker.mark marker.start made) drafts_made_nil
      exact ⟨⟨item.spine, item.blocks, item.references⟩, trivial⟩
  | case4 b c fuel outer inner moved _ marker behind scanned b' blank done box ticked =>
      have item : b'.Made P :=
        push_made _ _ (begin_list_made b marker.mark marker.start made) drafts_made_nil
      have left := Cursor.spaces_suffix 4 c
      rw [moved] at left
      have behind' := (list_marker_suffix outer inner behind marker scanned).trans left
      have box' := (task_marker_suffix behind box ending done ticked).trans behind'
      exact ⟨item, only_suffix _ _ ((Cursor.skip_spaces_suffix box).trans box') only⟩
  | case5 b c fuel outer inner moved _ marker behind scanned b' blank unticked ih =>
      have item : b'.Made P :=
        push_made _ _ (begin_list_made b marker.mark marker.start made) drafts_made_nil
      have left := Cursor.spaces_suffix 4 c
      rw [moved] at left
      have behind' := (list_marker_suffix outer inner behind marker scanned).trans left
      exact ih item (only_suffix _ _ behind' only)
  | case6 b c fuel outer inner moved _ unlisted behind quoted ih =>
      have left := Cursor.spaces_suffix 4 c
      rw [moved] at left
      have behind' := (quote_marker_suffix inner behind quoted).trans left
      exact ih (push_made _ _ (end_list_made b made) drafts_made_nil) (only_suffix _ _ behind' only)
  | case7 => exact ⟨made, only⟩

theorem leaf_made (kind : Kind P) (b : Builder) (c : Cursor) (before : Option Char) (line : Line)
    (following : List Line) (made : b.Made P) (only : Only P c.rest) (below : LinesOnly P following) :
    (b.leaf c before line following).1.Made P := by
  have ready := end_list_made b made
  have inner := only_suffix _ _ (Cursor.spaces_suffix 4 c) only
  unfold leaf
  generalize c.spaces 4 = moved at inner ⊢
  obtain ⟨indent, c'⟩ := moved
  dsimp only at inner ⊢
  split
  · exact indented_code_made kind _ c' line following ready inner below
  split
  · exact html_block_made kind _ c' indent _ line following ready inner below
  split
  · exact add_made _ _ ready .rule
  split
  · exact heading_made kind _ c' _ line following ready inner below
  split
  · exact fenced_code_made kind _ c' indent _ line following ready below
  · exact definitions_made kind _ c' _ line following ready inner below

theorem read_line_made (kind : Kind P) (b : Builder) (before : Option Char) (line : Line)
    (following : List Line) (made : b.Made P) (only : Only P line.text)
    (below : LinesOnly P following) : (b.readLine before line following).1.Made P := by
  have inner := enter_all_only b.frames line only
  unfold readLine
  generalize Frame.enterAll b.frames (.start line) = entered at inner ⊢
  obtain ⟨count, c⟩ := entered
  have closed := close_many_made (b.spine.length - count) b made
  have opened := open_containers_made line.ending (line.text.length + 1) _ c closed inner
  dsimp only
  generalize openContainers line.ending (line.text.length + 1) (b.closeMany (b.spine.length - count)) c =
    result at opened ⊢
  obtain ⟨b', left⟩ := result
  obtain ⟨made', left'⟩ := opened
  cases left with
  | nothing => exact made'
  | task done c =>
      dsimp only
      split
      · exact add_made _ _ ⟨made'.spine, made'.blocks, made'.references⟩
          (.tight _ ⟨only_nil, fun _ member => (nomatch member), only_nil⟩)
      · exact paragraph_made kind b' c _ _ line following made' left' below
  | text c =>
      dsimp only
      split
      · exact blank_line_made b' made'
      · exact leaf_made kind b' c before line following made' left' below

theorem read_lines_made (kind : Kind P) (b : Builder) (before : Option Char) (lines : List Line)
    (made : b.Made P) (only : LinesOnly P lines) : (b.readLines before lines).Made P := by
  fun_induction readLines b before lines with
  | case1 b before => exact made
  | case2 b before line following b' more read ih =>
      obtain ⟨first, rest⟩ := lines_only_tail line following only
      have after := read_line_made kind b before line following made first rest
      rw [read] at after
      exact ih after (lines_only_drop more following rest)

end Builder

section
variable {ι κ σ : Type} {Q : ι → Prop} {R : κ → Prop} (f : ι → σ → κ × σ)

theorem visit_made (maps : ∀ x s, Q x → R (f x s).1) (xs : List ι) (s : σ) (made : ∀ x ∈ xs, Q x) :
    ∀ y ∈ (Block.visit f xs s).1, R y := by
  induction xs generalizing s with
  | nil => exact fun _ member => nomatch member
  | cons x xs ih =>
      obtain ⟨first, rest⟩ := List.forall_mem_cons.mp made
      exact List.forall_mem_cons.mpr ⟨maps x s first, ih (f x s).2 rest⟩

theorem visit_rows_made (maps : ∀ x s, Q x → R (f x s).1) (rows : List (List ι)) (s : σ)
    (made : ∀ row ∈ rows, ∀ x ∈ row, Q x) : ∀ row ∈ (Block.visitRows f rows s).1, ∀ y ∈ row, R y := by
  induction rows generalizing s with
  | nil => exact fun _ member => nomatch member
  | cons row rows ih =>
      obtain ⟨first, rest⟩ := List.forall_mem_cons.mp made
      exact List.forall_mem_cons.mpr ⟨visit_made f maps row s first, ih _ rest⟩

theorem map_contents_all (T : Block κ → Prop) (blocks : List (Block ι)) (s : σ)
    (each : ∀ block ∈ blocks, ∀ s, T (Block.mapContent f block s).1) :
    ∀ block ∈ (Block.mapContents f blocks s).1, T block := by
  induction blocks generalizing s with
  | nil => exact fun _ member => nomatch member
  | cons block blocks ih =>
      obtain ⟨first, rest⟩ := List.forall_mem_cons.mp each
      exact List.forall_mem_cons.mpr ⟨first s, ih _ rest⟩

theorem map_items_all (T : Block κ → Prop) (items : List (List (Block ι))) (s : σ)
    (each : ∀ item ∈ items, ∀ block ∈ item, ∀ s, T (Block.mapContent f block s).1) :
    ∀ item ∈ (Block.mapItems f items s).1, ∀ block ∈ item, T block := by
  induction items generalizing s with
  | nil => exact fun _ member => nomatch member
  | cons item items ih =>
      obtain ⟨first, rest⟩ := List.forall_mem_cons.mp each
      exact List.forall_mem_cons.mpr ⟨map_contents_all f T item s first, ih _ rest⟩

theorem map_content_made (maps : ∀ x s, Q x → R (f x s).1) (block : Block ι) (s : σ)
    (made : block.Made P Q) : (Block.mapContent f block s).1.Made P R := by
  induction made generalizing s with
  | paragraph content inside => exact .paragraph _ (maps content s inside)
  | tight content inside => exact .tight _ (maps content s inside)
  | heading level content inside => exact .heading level _ (maps content s inside)
  | quote children inside ih => exact .quote _ (map_contents_all f _ children s ih)
  | list start items inside ih => exact .list start _ (map_items_all f _ items s ih)
  | code info content only => exact .code info content only
  | html lines only => exact .html lines only
  | rule => exact .rule
  | table columns head rows first rest =>
      exact .table columns _ _ (visit_made f maps head s first) (visit_rows_made f maps rows _ rest)

end

theorem parse_made (kind : Kind P) (source : String) (only : Only P source.toList) :
    (parse source).Made P := by
  have lines : LinesOnly P (Line.ofText source.toList) :=
    line_split_only [] [] source.toList only_nil (fun _ member => nomatch member) only
  have empty : Builder.Made P {} :=
    ⟨fun _ member => (nomatch member), drafts_made_nil, fun label target found => by simp at found⟩
  have built := Builder.read_lines_made kind {} none _ empty lines
  have drafts := Builder.finish_made _ built
  exact map_contents_all _ _ _ _ fun draft member s =>
    map_content_made _ (fun content budget made => inlines_made kind _ content budget built.references made)
      draft s (drafts draft member)

end
end MarkdownServer.Markdown
