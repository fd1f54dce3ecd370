import MarkdownServer.Proofs.Markdown.Nesting
import MarkdownServer.Proofs.Markdown.Provenance.Kinds
/- What every block of a document keeps to at any depth: a quote holds blocks with markup of their own
   only, the info of a code block is of the kind of the source, and the rows of a table are as wide as
   its head, which has a cell. -/
set_option autoImplicit false

namespace MarkdownServer.Markdown

inductive Block.Regular (P : Char → Prop) {ι : Type} : Block ι → Prop where
  | paragraph (content : ι) : Regular P (.paragraph content)
  | tight (content : ι) : Regular P (.tight content)
  | heading (level : Nat) (content : ι) : Regular P (.heading level content)
  | quote (children : List (Block ι)) (parted : AllParted children)
      (inside : ∀ child ∈ children, Regular P child) : Regular P (.quote children)
  | list (start : Option Nat) (items : List (List (Block ι)))
      (inside : ∀ item ∈ items, ∀ child ∈ item, Regular P child) : Regular P (.list start items)
  | code (info : Option String) (content : String)
      (named : ∀ name, info = some name → Only P name.toList) : Regular P (.code info content)
  | html (lines : List HtmlLine) : Regular P (.html lines)
  | rule : Regular P .rule
  | table (columns : List Alignment) (head : List ι) (rows : List (List ι)) (wide : head ≠ [])
      (even : ∀ row ∈ rows, row.length = head.length) : Regular P (.table columns head rows)

def AllRegular (P : Char → Prop) {ι : Type} (blocks : List (Block ι)) : Prop :=
  ∀ block ∈ blocks, block.Regular P

def Frame.Regular (P : Char → Prop) : Frame → Prop
  | .quote blocks => AllRegular P blocks
  | .item _ blocks => AllRegular P blocks
  | .list _ _ _ items => ∀ item ∈ items, AllRegular P item

-- That the blocks of an open quote are parted is part of `Builder.Nested`.
structure Builder.Regular (P : Char → Prop) (b : Builder) : Prop where
  spine : ∀ frame ∈ b.spine, frame.Regular P
  blocks : AllRegular P b.blocks

section
variable {P : Char → Prop}

theorem all_regular_nil {ι : Type} : AllRegular P ([] : List (Block ι)) := List.forall_mem_nil _

theorem all_regular_cons {ι : Type} (block : Block ι) (blocks : List (Block ι)) :
    AllRegular P (block :: blocks) ↔ block.Regular P ∧ AllRegular P blocks :=
  List.forall_mem_cons

theorem all_regular_reverse {ι : Type} (blocks : List (Block ι)) :
    AllRegular P blocks.reverse ↔ AllRegular P blocks := by
  simp [AllRegular]

theorem tighten_regular (draft : Draft) (regular : draft.Regular P) : draft.tighten.Regular P := by
  cases regular with
  | paragraph content => exact .tight content
  | tight content => exact .tight content
  | heading level content => exact .heading level content
  | quote children parted inside => exact .quote children parted inside
  | list start items inside => exact .list start items inside
  | code info content named => exact .code info content named
  | html lines => exact .html lines
  | rule => exact .rule
  | table columns head rows wide even => exact .table columns head rows wide even

theorem columns_wide (text : List Char) (done : List Alignment) (current : Table.Column)
    (bar hyphen : Bool) (all : List Alignment)
    (read : Table.columns done current bar hyphen text = some all) : all ≠ [] := by
  fun_induction Table.columns done current bar hyphen text with
  | case1 done current bar hyphen every some =>
      cases read
      simp only [Bool.and_eq_true, Bool.not_eq_true', List.isEmpty_eq_false_iff] at some
      exact List.reverse_ne_nil_iff.mpr some.2
  | _ => grind

theorem table_below_wide (frames : List Frame) (here : Here) (columns : List Alignment)
    (found : here.tableBelow frames = some columns) : columns ≠ [] := by
  unfold Here.tableBelow at found
  split at found
  · dsimp only at found
    split at found
    · obtain ⟨read, -⟩ := Option.filter_eq_some_iff.mp found
      unfold Table.delimiterRow? at read
      dsimp only at read
      split at read
      · cases read
      · split at read
        · cases read
        · exact columns_wide _ _ _ _ _ _ read
        · exact columns_wide _ _ _ _ _ _ read
    · cases found
  · cases found

theorem table_rows_even (frames : List Frame) (width count : Nat) (done : List (List Content))
    (lines : List Line) (even : ∀ row ∈ done, row.length = width) :
    ∀ row ∈ (Builder.tableRows frames width done count lines).1, row.length = width := by
  fun_induction Builder.tableRows frames width done count lines with
  | case1 done count => exact fun row member => even row (List.mem_reverse.mp member)
  | case2 done count => exact fun row member => even row (List.mem_reverse.mp member)
  | case3 done count line following entered c moved text further ih =>
      exact ih (List.forall_mem_cons.mpr ⟨Table.length_fit_row _ _ _, even⟩)

namespace Builder

theorem add_regular (b : Builder) (draft : Draft) (regular : b.Regular P) (new : draft.Regular P) :
    (b.add draft).Regular P := by
  obtain ⟨spine, blocks⟩ := regular
  unfold add
  split
  · exact ⟨spine, (all_regular_cons _ _).mpr ⟨new, blocks⟩⟩
  all_goals
    rename_i frames
    rw [frames] at spine
    obtain ⟨top, rest⟩ := List.forall_mem_cons.mp spine
    refine ⟨List.forall_mem_cons.mpr ⟨?_, rest⟩, blocks⟩
  · exact (all_regular_cons _ _).mpr ⟨new, top⟩
  · exact (all_regular_cons _ _).mpr ⟨new, top⟩
  · exact List.forall_mem_cons.mpr ⟨(all_regular_cons _ _).mpr ⟨new, all_regular_nil⟩, top⟩

theorem push_regular (b : Builder) (frame : Frame) (regular : b.Regular P) (new : frame.Regular P) :
    (b.push frame).Regular P :=
  ⟨List.forall_mem_cons.mpr ⟨new, regular.spine⟩, regular.blocks⟩

theorem close_regular (b : Builder) (nested : b.Nested) (regular : b.Regular P) :
    b.close.Regular P := by
  obtain ⟨spine, blocks⟩ := regular
  have held := nested.spine
  unfold close
  split
  · exact ⟨spine, blocks⟩
  · rename_i children rest frames
    rw [frames] at spine held
    obtain ⟨top, rest⟩ := List.forall_mem_cons.mp spine
    cases held with
    | quote _ _ parted below =>
        exact add_regular _ _ ⟨rest, blocks⟩
          (.quote _ ((all_parted_reverse _).mpr parted) ((all_regular_reverse _).mpr top))
  · rename_i indent children tight marker start items rest frames
    rw [frames] at spine
    obtain ⟨top, below⟩ := List.forall_mem_cons.mp spine
    obtain ⟨list, rest⟩ := List.forall_mem_cons.mp below
    have item := (all_regular_reverse children).mpr top
    exact ⟨List.forall_mem_cons.mpr ⟨List.forall_mem_cons.mpr ⟨item, list⟩, rest⟩, blocks⟩
  · -- An item that is not in a list does not occur.
    rename_i indent children rest alone frames
    rw [frames] at held
    cases held with
    | item _ _ tight marker start items rest below => exact absurd rfl (alone tight marker start items rest)
  · rename_i tight marker start items rest frames
    rw [frames] at spine
    obtain ⟨top, rest⟩ := List.forall_mem_cons.mp spine
    have tightened : ∀ item ∈ (if tight then items.map (List.map Block.tighten) else items),
        AllRegular P item := by
      split
      · intro item member
        obtain ⟨loose, inside, rfl⟩ := List.mem_map.mp member
        intro draft member
        obtain ⟨old, found, rfl⟩ := List.mem_map.mp member
        exact tighten_regular old (top loose inside old found)
      · exact top
    exact add_regular _ _ ⟨rest, blocks⟩
      (.list _ _ fun item member => tightened item (List.mem_reverse.mp member))

theorem close_many_regular (count : Nat) (b : Builder) (nested : b.Nested) (regular : b.Regular P) :
    (b.closeMany count).Regular P := by
  induction count generalizing b with
  | zero => exact regular
  | succ count ih => exact ih b.close (close_nested b nested) (close_regular b nested regular)

theorem end_bare_item_regular (b : Builder) (nested : b.Nested) (regular : b.Regular P) :
    b.endBareItem.Regular P := by
  unfold endBareItem
  dsimp only
  split
  · obtain ⟨spine, blocks⟩ := close_regular b nested regular
    exact ⟨spine, blocks⟩
  · exact ⟨regular.spine, regular.blocks⟩

theorem loosen_regular (b : Builder) (regular : b.Regular P) : b.loosen.Regular P := by
  unfold loosen
  split
  · rename_i frames
    have spine := regular.spine
    rw [frames] at spine
    obtain ⟨first, below⟩ := List.forall_mem_cons.mp spine
    obtain ⟨list, rest⟩ := List.forall_mem_cons.mp below
    exact ⟨List.forall_mem_cons.mpr ⟨first, List.forall_mem_cons.mpr ⟨list, rest⟩⟩,
      regular.blocks⟩
  · exact regular

theorem end_list_regular (b : Builder) (nested : b.Nested) (regular : b.Regular P) :
    b.endList.Regular P := by
  have parted := end_bare_item_nested b nested
  have bare := end_bare_item_regular b nested regular
  have after (b : Builder) (regular : b.Regular P) :
      (if b.gap then { b.loosen with gap := false } else b).Regular P := by
    split
    · obtain ⟨spine, blocks⟩ := loosen_regular b regular
      exact ⟨spine, blocks⟩
    · exact regular
  unfold endList
  dsimp only
  split
  · exact after _ (close_regular _ parted bare)
  · exact after _ bare

theorem begin_list_regular (b : Builder) (marker : Char) (start : Nat) (nested : b.Nested)
    (regular : b.Regular P) : (b.beginList marker start).Regular P := by
  have parted := end_bare_item_nested b nested
  have bare := end_bare_item_regular b nested regular
  obtain ⟨spine, blocks⟩ := push_regular b.endBareItem.endList (.list true marker start [])
    (end_list_regular _ parted bare) (List.forall_mem_nil _)
  unfold beginList
  dsimp only
  split
  · rename_i frames
    split
    · split
      · have spine := bare.spine
        rw [frames] at spine
        obtain ⟨top, rest⟩ := List.forall_mem_cons.mp spine
        exact ⟨List.forall_mem_cons.mpr ⟨top, rest⟩, bare.blocks⟩
      · exact bare
    · exact ⟨spine, blocks⟩
  · exact ⟨spine, blocks⟩

theorem blank_line_regular (b : Builder) (regular : b.Regular P) : b.blankLine.Regular P := by
  unfold blankLine
  split
  · exact regular
  · rename_i frames
    split
    · have spine := regular.spine
      rw [frames] at spine
      obtain ⟨top, rest⟩ := List.forall_mem_cons.mp spine
      exact ⟨List.forall_mem_cons.mpr ⟨top, rest⟩, regular.blocks⟩
    · exact ⟨regular.spine, regular.blocks⟩
  · exact ⟨regular.spine, regular.blocks⟩

theorem finish_regular (b : Builder) (nested : b.Nested) (regular : b.Regular P) :
    AllRegular P b.finish :=
  (all_regular_reverse _).mpr (close_many_regular b.spine.length b nested regular).blocks

theorem indented_code_regular (b : Builder) (c : Cursor) (line : Line) (following : List Line)
    (regular : b.Regular P) : (b.indentedCode c line following).1.Regular P :=
  add_regular _ _ ⟨regular.spine, regular.blocks⟩ (.code none _ fun _ named => nomatch named)

theorem fenced_code_regular (kind : Kind P) (b : Builder) (c : Cursor) (indent : Nat) (fence : Fence)
    (line : Line) (following : List Line) (regular : b.Regular P) (only : Only P c.rest)
    (below : LinesOnly P following) :
    (b.fencedCode c indent fence line following).1.Regular P := by
  have opening := through_feed_only kind (c.rest.drop fence.length) line.ending following
    (only_drop fence.length c.rest only) below
  unfold fencedCode
  generalize Line.throughFeed (c.rest.drop fence.length) line.ending following = read at opening ⊢
  obtain ⟨opened, more⟩ := read
  refine add_regular b _ regular (.code _ _ ?_)
  intro name same
  cases same
  rw [String.toList_ofList]
  exact unescape_only kind false _ (only_drop_trailing _ _ (only_drop_while _ _ opening))

theorem html_block_regular (b : Builder) (c : Cursor) (indent : Nat) (ending : HtmlEnd) (line : Line)
    (following : List Line) (regular : b.Regular P) :
    (b.htmlBlock c indent ending line following).1.Regular P :=
  add_regular b _ regular (.html _)

theorem heading_regular (b : Builder) (c : Cursor) (level : Nat) (line : Line)
    (following : List Line) (regular : b.Regular P) :
    (b.heading c level line following).1.Regular P := by
  unfold heading
  dsimp only
  split
  · exact add_regular b _ regular (.heading _ _)
  · exact add_regular b _ regular (.heading _ _)

theorem paragraph_regular (b : Builder) (c : Cursor) (before : Option Char) (task : Option Bool)
    (line : Line) (following : List Line) (regular : b.Regular P) :
    (b.paragraph c before task line following).1.Regular P := by
  unfold paragraph
  dsimp only
  split
  · rename_i columns found
    have wide : columns ≠ [] := by
      split at found
      · cases found
      · exact table_below_wide _ _ columns found
    have head : (tableRows.rowOf columns.length c.rest).length = columns.length :=
      Table.length_fit_row _ _ _
    refine add_regular b _ regular (.table _ _ _ ?_ ?_)
    · intro empty
      rw [empty] at head
      exact wide (List.eq_nil_of_length_eq_zero head.symm)
    · rw [head]
      exact table_rows_even b.frames columns.length 1 [] (following.drop 1) (List.forall_mem_nil _)
  · generalize paragraphLines b.frames ⟨c.rest.reverse, c.rest.length, [], line.ending⟩ 0 following =
      read
    obtain ⟨g, level, count⟩ := read
    cases level with
    | none => exact add_regular b _ regular (.paragraph _)
    | some level => exact add_regular b _ regular (.heading _ _)

theorem definitions_regular (b : Builder) (c : Cursor) (before : Option Char) (line : Line)
    (following : List Line) (regular : b.Regular P) :
    (b.definitions c before line following).1.Regular P := by
  fun_induction definitions b c before line following with
  | case1 b c before line following _ => exact paragraph_regular b c before none line following regular
  | case2 => exact ⟨regular.spine, regular.blocks⟩
  | case3 => exact ⟨regular.spine, regular.blocks⟩
  | case4 b c before line following label target left read b' count next rest remaining _ entered c'
      inside taken inner moved _ c'' result more further ih =>
      rw [further] at ih
      exact ih ⟨regular.spine, regular.blocks⟩

theorem open_containers_regular (ending : LineEnd) (fuel : Nat) (b : Builder) (c : Cursor)
    (nested : b.Nested) (regular : b.Regular P) : (openContainers ending fuel b c).1.Regular P := by
  have item (b : Builder) (marker : ListMarker) (nested : b.Nested) (regular : b.Regular P) :
      ((b.beginList marker.mark marker.start).push (.item marker.indent [])).Nested ∧
        ((b.beginList marker.mark marker.start).push (.item marker.indent [])).Regular P := by
    obtain ⟨begun, list⟩ := begin_list_nested b marker.mark marker.start nested
    exact ⟨push_item_nested _ marker.indent begun list,
      push_regular _ _ (begin_list_regular b marker.mark marker.start nested regular) all_regular_nil⟩
  fun_induction openContainers ending fuel b c with
  | case1 b c => exact regular
  | case2 b c fuel outer inner moved far => exact regular
  | case3 b c fuel outer inner moved _ marker behind scanned b' blank =>
      obtain ⟨_, opened⟩ := item b marker nested regular
      exact ⟨opened.spine, opened.blocks⟩
  | case4 b c fuel outer inner moved _ marker behind scanned b' blank done box ticked =>
      exact (item b marker nested regular).2
  | case5 b c fuel outer inner moved _ marker behind scanned b' blank unticked ih =>
      obtain ⟨held, opened⟩ := item b marker nested regular
      exact ih held opened
  | case6 b c fuel outer inner moved _ unlisted behind quoted ih =>
      obtain ⟨spine, blocks⟩ := end_list_nested b nested
      exact ih ⟨.quote _ _ (List.forall_mem_nil _) spine, blocks⟩
        (push_regular _ _ (end_list_regular b nested regular) all_regular_nil)
  | case7 b c => exact regular

theorem leaf_regular (kind : Kind P) (b : Builder) (c : Cursor) (before : Option Char) (line : Line)
    (following : List Line) (nested : b.Nested) (regular : b.Regular P) (only : Only P c.rest)
    (below : LinesOnly P following) : (b.leaf c before line following).1.Regular P := by
  have ready := end_list_regular b nested regular
  have inner := only_suffix _ _ (Cursor.spaces_suffix 4 c) only
  unfold leaf
  generalize c.spaces 4 = moved at inner ⊢
  obtain ⟨indent, c'⟩ := moved
  dsimp only at inner ⊢
  split
  · exact indented_code_regular _ c' line following ready
  split
  · exact html_block_regular _ c' indent _ line following ready
  split
  · exact add_regular _ _ ready .rule
  split
  · exact heading_regular _ c' _ line following ready
  split
  · exact fenced_code_regular kind _ c' indent _ line following ready inner below
  · exact definitions_regular _ c' _ line following ready

theorem read_line_regular (kind : Kind P) (b : Builder) (before : Option Char) (line : Line)
    (following : List Line) (nested : b.Nested) (regular : b.Regular P) (only : Only P line.text)
    (below : LinesOnly P following) (made : b.Made P) :
    (b.readLine before line following).1.Regular P := by
  have inner := enter_all_only b.frames line only
  unfold readLine
  generalize Frame.enterAll b.frames (.start line) = entered at inner ⊢
  obtain ⟨count, c⟩ := entered
  have closed := close_many_nested (b.spine.length - count) b nested
  have opened := open_containers_nested line.ending (line.text.length + 1) _ c closed
  have kept := open_containers_made line.ending (line.text.length + 1) _ c
    (close_many_made (b.spine.length - count) b made) inner
  have held := open_containers_regular line.ending (line.text.length + 1) _ c closed
    (close_many_regular (b.spine.length - count) b nested regular)
  dsimp only
  generalize openContainers line.ending (line.text.length + 1) (b.closeMany (b.spine.length - count)) c =
    result at opened kept held ⊢
  obtain ⟨b', left⟩ := result
  cases left with
  | nothing => exact held
  | task done c =>
      dsimp only
      split
      · exact add_regular _ _ ⟨held.spine, held.blocks⟩ (.tight _)
      · exact paragraph_regular b' c _ _ line following held
  | text c =>
      dsimp only
      split
      · exact blank_line_regular b' held
      · exact leaf_regular kind b' c before line following opened.1 held kept.2 below

theorem read_lines_regular (kind : Kind P) (b : Builder) (before : Option Char) (lines : List Line)
    (nested : b.Nested) (made : b.Made P) (regular : b.Regular P) (only : LinesOnly P lines) :
    (b.readLines before lines).Regular P := by
  fun_induction readLines b before lines with
  | case1 b before => exact regular
  | case2 b before line following b' more read ih =>
      obtain ⟨first, rest⟩ := lines_only_tail line following only
      have stands := read_line_nested b before line following nested
      have kept := read_line_made kind b before line following made first rest
      have after := read_line_regular kind b before line following nested regular first rest made
      rw [read] at stands kept after
      exact ih stands kept after (lines_only_drop more following rest)

end Builder

theorem visit_length {ι κ σ : Type} (f : ι → σ → κ × σ) (xs : List ι) (s : σ) :
    (Block.visit f xs s).1.length = xs.length := by
  induction xs generalizing s with
  | nil => rfl
  | cons x xs ih => exact congrArg Nat.succ (ih _)

theorem visit_rows_even {ι κ σ : Type} (f : ι → σ → κ × σ) (width : Nat) (rows : List (List ι)) (s : σ)
    (even : ∀ row ∈ rows, row.length = width) :
    ∀ row ∈ (Block.visitRows f rows s).1, row.length = width := by
  induction rows generalizing s with
  | nil => exact List.forall_mem_nil _
  | cons row rows ih =>
      obtain ⟨first, rest⟩ := List.forall_mem_cons.mp even
      exact List.forall_mem_cons.mpr ⟨(visit_length f row s).trans first, ih _ rest⟩

theorem map_content_regular {ι κ σ : Type} (f : ι → σ → κ × σ) (block : Block ι) (s : σ)
    (regular : block.Regular P) : (Block.mapContent f block s).1.Regular P := by
  induction regular generalizing s with
  | paragraph content => exact .paragraph _
  | tight content => exact .tight _
  | heading level content => exact .heading level _
  | quote children parted inside ih =>
      have apart := map_contents_all f Block.Parted children s fun child member s =>
        map_content_parted f child s (parted child member)
      exact .quote _ apart (map_contents_all f _ children s ih)
  | list start items inside ih => exact .list start _ (map_items_all f _ items s ih)
  | code info content named => exact .code info content named
  | html lines => exact .html lines
  | rule => exact .rule
  | table columns head rows wide even =>
      refine .table columns _ _ (fun empty => ?_) ?_
      · have same := visit_length f head s
        rw [empty] at same
        exact wide (List.eq_nil_of_length_eq_zero same.symm)
      · rw [visit_length]
        exact visit_rows_even f head.length rows _ even

theorem parse_regular (kind : Kind P) (source : String) (only : Only P source.toList) :
    AllRegular P (parse source) := by
  have lines : LinesOnly P (Line.ofText source.toList) :=
    line_split_only [] [] source.toList only_nil (fun _ member => nomatch member) only
  have nested : Builder.Nested {} := ⟨.nil, List.forall_mem_nil _⟩
  have made : Builder.Made P {} :=
    ⟨fun _ member => (nomatch member), drafts_made_nil, fun label target found => by simp at found⟩
  have empty : Builder.Regular P {} := ⟨fun _ member => (nomatch member), all_regular_nil⟩
  have stands := Builder.read_lines_nested {} none (Line.ofText source.toList) nested
  have built := Builder.read_lines_regular kind {} none (Line.ofText source.toList) nested made empty lines
  exact map_contents_all _ _ _ _ fun draft member s =>
    map_content_regular _ draft s (Builder.finish_regular _ stands built draft member)

end

theorem parse_infos_solid (source : String) (free : '\x00' ∉ source.toList) :
    AllRegular Solid (parse source) :=
  parse_regular solid_kind source fun c member same => free (by rwa [← same])

theorem parse_nested (source : String) : AllRegular (fun _ => True) (parse source) :=
  parse_regular ⟨trivial, trivial, trivial, fun _ _ _ _ _ _ _ => trivial⟩ source fun _ _ => trivial

end MarkdownServer.Markdown
