import MarkdownServer.Proofs.Markdown.Provenance.Block
/- How blocks stand in each other: text without the markup of a paragraph stands in items of lists
   only, because an item is open only right inside of its list. -/
set_option autoImplicit false

namespace MarkdownServer.Markdown

inductive Block.Parted {ι : Type} : Block ι → Prop where
  | paragraph (content : ι) : Parted (.paragraph content)
  | heading (level : Nat) (content : ι) : Parted (.heading level content)
  | quote (children : List (Block ι)) (inside : ∀ child ∈ children, Parted child) :
      Parted (.quote children)
  | list (start : Option Nat) (items : List (List (Block ι))) : Parted (.list start items)
  | code (info : Option String) (content : String) : Parted (.code info content)
  | html (lines : List HtmlLine) : Parted (.html lines)
  | rule : Parted .rule
  | table (columns : List Alignment) (head : List ι) (rows : List (List ι)) :
      Parted (.table columns head rows)

def AllParted {ι : Type} (blocks : List (Block ι)) : Prop := ∀ block ∈ blocks, block.Parted

-- Open containers, innermost first: an item has its list right around it.
inductive Spine : List Frame → Prop where
  | nil : Spine []
  | quote (blocks : List Draft) (rest : List Frame) (inside : AllParted blocks) (below : Spine rest) :
      Spine (.quote blocks :: rest)
  | list (tight : Bool) (marker : Char) (start : Nat) (items : List (List Draft)) (rest : List Frame)
      (below : Spine rest) : Spine (.list tight marker start items :: rest)
  | item (indent : Nat) (blocks : List Draft) (tight : Bool) (marker : Char) (start : Nat)
      (items : List (List Draft)) (rest : List Frame) (below : Spine rest) :
      Spine (.item indent blocks :: .list tight marker start items :: rest)

structure Builder.Nested (b : Builder) : Prop where
  spine : Spine b.spine
  blocks : AllParted b.blocks

def Builder.InList (b : Builder) : Prop :=
  ∃ tight marker start items rest, b.spine = .list tight marker start items :: rest

def Builder.InItem (b : Builder) : Prop := ∃ indent blocks rest, b.spine = .item indent blocks :: rest

theorem all_parted_cons {ι : Type} (block : Block ι) (blocks : List (Block ι)) :
    AllParted (block :: blocks) ↔ block.Parted ∧ AllParted blocks :=
  List.forall_mem_cons

theorem all_parted_reverse {ι : Type} (blocks : List (Block ι)) :
    AllParted blocks.reverse ↔ AllParted blocks := by
  simp [AllParted]

namespace Builder

theorem add_nested (b : Builder) (draft : Draft) (nested : b.Nested) (parted : draft.Parted) :
    (b.add draft).Nested := by
  obtain ⟨spine, blocks⟩ := nested
  unfold add
  split
  · exact ⟨spine, (all_parted_cons _ _).mpr ⟨parted, blocks⟩⟩
  all_goals
    rename_i frames
    rw [frames] at spine
    refine ⟨?_, blocks⟩
    cases spine
  · rename_i inside below
    exact .quote _ _ ((all_parted_cons _ _).mpr ⟨parted, inside⟩) below
  · rename_i below
    exact .item _ _ _ _ _ _ _ below
  · rename_i below
    exact .list _ _ _ _ _ below

theorem add_item_nested (b : Builder) (draft : Draft) (nested : b.Nested) (item : b.InItem) :
    (b.add draft).Nested := by
  obtain ⟨spine, blocks⟩ := nested
  obtain ⟨indent, children, rest, frames⟩ := item
  rw [frames] at spine
  unfold add
  rw [frames]
  cases spine with
  | item _ _ _ _ _ _ _ below => exact ⟨.item _ _ _ _ _ _ _ below, blocks⟩

theorem close_nested (b : Builder) (nested : b.Nested) : b.close.Nested := by
  obtain ⟨spine, blocks⟩ := nested
  unfold close
  split
  · exact ⟨spine, blocks⟩
  · rename_i children rest frames
    rw [frames] at spine
    cases spine with
    | quote _ _ inside below =>
        exact add_nested _ _ ⟨below, blocks⟩ (.quote _ ((all_parted_reverse _).mpr inside))
  · rename_i frames
    rw [frames] at spine
    cases spine with
    | item _ _ _ _ _ _ _ below => exact ⟨.list _ _ _ _ _ below, blocks⟩
  · -- An item that is not in a list does not occur.
    rename_i indent children rest alone frames
    rw [frames] at spine
    cases spine with
    | item _ _ tight marker start items rest below => exact absurd rfl (alone tight marker start items rest)
  · rename_i frames
    rw [frames] at spine
    cases spine with
    | list _ _ _ _ _ below => exact add_nested _ _ ⟨below, blocks⟩ (.list _ _)

theorem close_many_nested (count : Nat) (b : Builder) (nested : b.Nested) :
    (b.closeMany count).Nested := by
  induction count generalizing b with
  | zero => exact nested
  | succ count ih => exact ih b.close (close_nested b nested)

theorem end_bare_item_nested (b : Builder) (nested : b.Nested) : b.endBareItem.Nested := by
  unfold endBareItem
  dsimp only
  split
  · obtain ⟨spine, blocks⟩ := close_nested b nested
    exact ⟨spine, blocks⟩
  · exact ⟨nested.spine, nested.blocks⟩

theorem loosen_nested (b : Builder) (nested : b.Nested) : b.loosen.Nested := by
  unfold loosen
  split
  · rename_i frames
    have spine := nested.spine
    rw [frames] at spine
    cases spine with
    | quote _ _ inside below =>
        cases below with
        | list _ _ _ _ _ below => exact ⟨.quote _ _ inside (.list _ _ _ _ _ below), nested.blocks⟩
    | list _ _ _ _ _ below =>
        cases below with
        | list _ _ _ _ _ below => exact ⟨.list _ _ _ _ _ (.list _ _ _ _ _ below), nested.blocks⟩
    | item _ _ _ _ _ _ _ below => exact ⟨.item _ _ _ _ _ _ _ below, nested.blocks⟩
  · exact nested

theorem end_list_nested (b : Builder) (nested : b.Nested) : b.endList.Nested := by
  have bare := end_bare_item_nested b nested
  have after (b : Builder) (nested : b.Nested) :
      (if b.gap then { b.loosen with gap := false } else b).Nested := by
    split
    · obtain ⟨spine, blocks⟩ := loosen_nested b nested
      exact ⟨spine, blocks⟩
    · exact nested
  unfold endList
  dsimp only
  split
  · exact after _ (close_nested _ bare)
  · exact after _ bare

theorem begin_list_nested (b : Builder) (marker : Char) (start : Nat) (nested : b.Nested) :
    (b.beginList marker start).Nested ∧ (b.beginList marker start).InList := by
  have bare := end_bare_item_nested b nested
  obtain ⟨spine, blocks⟩ := end_list_nested _ bare
  unfold beginList
  dsimp only
  split
  · rename_i frames
    split
    · split
      · have spine := bare.spine
        rw [frames] at spine
        cases spine with
        | list _ _ _ _ _ below =>
            exact ⟨⟨.list _ _ _ _ _ below, bare.blocks⟩, _, _, _, _, _, rfl⟩
      · exact ⟨bare, _, _, _, _, _, frames⟩
    · exact ⟨⟨.list _ _ _ _ _ spine, blocks⟩, _, _, _, _, _, rfl⟩
  · exact ⟨⟨.list _ _ _ _ _ spine, blocks⟩, _, _, _, _, _, rfl⟩

theorem push_item_nested (b : Builder) (indent : Nat) (nested : b.Nested) (list : b.InList) :
    (b.push (.item indent [])).Nested := by
  obtain ⟨spine, blocks⟩ := nested
  obtain ⟨tight, marker, start, items, rest, frames⟩ := list
  unfold push
  rw [frames] at spine ⊢
  cases spine with
  | list _ _ _ _ _ below => exact ⟨.item _ _ _ _ _ _ _ below, blocks⟩

theorem blank_line_nested (b : Builder) (nested : b.Nested) : b.blankLine.Nested := by
  unfold blankLine
  split
  · exact nested
  · rename_i frames
    split
    · have spine := nested.spine
      rw [frames] at spine
      cases spine with
      | item _ _ _ _ _ _ _ below => exact ⟨.item _ _ _ _ _ _ _ below, nested.blocks⟩
    · exact ⟨nested.spine, nested.blocks⟩
  · exact ⟨nested.spine, nested.blocks⟩

theorem finish_nested (b : Builder) (nested : b.Nested) : AllParted b.finish :=
  (all_parted_reverse _).mpr (close_many_nested b.spine.length b nested).blocks

theorem indented_code_nested (b : Builder) (c : Cursor) (line : Line) (following : List Line)
    (nested : b.Nested) : (b.indentedCode c line following).1.Nested :=
  add_nested _ _ ⟨nested.spine, nested.blocks⟩ (.code _ _)

theorem fenced_code_nested (b : Builder) (c : Cursor) (indent : Nat) (fence : Fence) (line : Line)
    (following : List Line) (nested : b.Nested) :
    (b.fencedCode c indent fence line following).1.Nested :=
  add_nested _ _ nested (.code _ _)

theorem html_block_nested (b : Builder) (c : Cursor) (indent : Nat) (ending : HtmlEnd) (line : Line)
    (following : List Line) (nested : b.Nested) :
    (b.htmlBlock c indent ending line following).1.Nested :=
  add_nested _ _ nested (.html _)

theorem heading_nested (b : Builder) (c : Cursor) (level : Nat) (line : Line) (following : List Line)
    (nested : b.Nested) : (b.heading c level line following).1.Nested := by
  unfold heading
  dsimp only
  split
  · exact add_nested _ _ nested (.heading _ _)
  · exact add_nested _ _ nested (.heading _ _)

theorem paragraph_nested (b : Builder) (c : Cursor) (before : Option Char) (task : Option Bool)
    (line : Line) (following : List Line) (nested : b.Nested) :
    (b.paragraph c before task line following).1.Nested := by
  unfold paragraph
  dsimp only
  split
  · exact add_nested _ _ nested (.table _ _ _)
  · generalize paragraphLines b.frames ⟨c.rest.reverse, c.rest.length, [], line.ending⟩ 0 following =
      read
    obtain ⟨g, level, count⟩ := read
    cases level with
    | none => exact add_nested _ _ nested (.paragraph _)
    | some level => exact add_nested _ _ nested (.heading _ _)

theorem definitions_nested (b : Builder) (c : Cursor) (before : Option Char) (line : Line)
    (following : List Line) (nested : b.Nested) : (b.definitions c before line following).1.Nested := by
  fun_induction definitions b c before line following with
  | case1 b c before line following _ => exact paragraph_nested b c before none line following nested
  | case2 => exact ⟨nested.spine, nested.blocks⟩
  | case3 => exact ⟨nested.spine, nested.blocks⟩
  | case4 b c before line following label target left read b' count next rest remaining _ entered c'
      inside taken inner moved _ c'' result more further ih =>
      rw [further] at ih
      exact ih ⟨nested.spine, nested.blocks⟩

theorem open_containers_nested (ending : LineEnd) (fuel : Nat) (b : Builder) (c : Cursor)
    (nested : b.Nested) : (openContainers ending fuel b c).1.Nested ∧
      ∀ done box, (openContainers ending fuel b c).2 = .task done box →
        (openContainers ending fuel b c).1.InItem := by
  have item (b : Builder) (marker : ListMarker) (nested : b.Nested) :
      ((b.beginList marker.mark marker.start).push (.item marker.indent [])).Nested := by
    obtain ⟨begun, list⟩ := begin_list_nested b marker.mark marker.start nested
    exact push_item_nested _ marker.indent begun list
  have text (b : Builder) (c : Cursor) : ∀ done box, Opened.text c = .task done box → b.InItem := by
    intro done box task
    cases task
  fun_induction openContainers ending fuel b c with
  | case1 b c => exact ⟨nested, text b c⟩
  | case2 b c fuel outer inner moved far => exact ⟨nested, text b c⟩
  | case3 b c fuel outer inner moved _ marker behind scanned b' blank =>
      have opened : b'.Nested := item b marker nested
      refine ⟨⟨opened.spine, opened.blocks⟩, ?_⟩
      intro done box task
      cases task
  | case4 b c fuel outer inner moved _ marker behind scanned b' blank done box ticked =>
      exact ⟨item b marker nested, fun _ _ _ => ⟨_, _, _, rfl⟩⟩
  | case5 b c fuel outer inner moved _ marker behind scanned b' blank unticked ih =>
      exact ih (item b marker nested)
  | case6 b c fuel outer inner moved _ unlisted behind quoted ih =>
      obtain ⟨spine, blocks⟩ := end_list_nested b nested
      exact ih ⟨.quote _ _ (List.forall_mem_nil _) spine, blocks⟩
  | case7 b c => exact ⟨nested, text b c⟩

theorem leaf_nested (b : Builder) (c : Cursor) (before : Option Char) (line : Line)
    (following : List Line) (nested : b.Nested) : (b.leaf c before line following).1.Nested := by
  have ready := end_list_nested b nested
  unfold leaf
  generalize c.spaces 4 = moved
  obtain ⟨indent, c'⟩ := moved
  dsimp only
  split
  · exact indented_code_nested _ c' line following ready
  split
  · exact html_block_nested _ c' indent _ line following ready
  split
  · exact add_nested _ _ ready .rule
  split
  · exact heading_nested _ c' _ line following ready
  split
  · exact fenced_code_nested _ c' indent _ line following ready
  · exact definitions_nested _ c' _ line following ready

theorem read_line_nested (b : Builder) (before : Option Char) (line : Line) (following : List Line)
    (nested : b.Nested) : (b.readLine before line following).1.Nested := by
  unfold readLine
  generalize Frame.enterAll b.frames (.start line) = entered
  obtain ⟨count, c⟩ := entered
  have closed := close_many_nested (b.spine.length - count) b nested
  have opened := open_containers_nested line.ending (line.text.length + 1) _ c closed
  dsimp only
  generalize openContainers line.ending (line.text.length + 1) (b.closeMany (b.spine.length - count)) c =
    result at opened ⊢
  obtain ⟨b', left⟩ := result
  obtain ⟨nested', task⟩ := opened
  cases left with
  | nothing => exact nested'
  | task done c =>
      dsimp only
      split
      · exact add_item_nested _ _ ⟨nested'.spine, nested'.blocks⟩ (task done c rfl)
      · exact paragraph_nested b' c _ _ line following nested'
  | text c =>
      dsimp only
      split
      · exact blank_line_nested b' nested'
      · exact leaf_nested b' c before line following nested'

theorem read_lines_nested (b : Builder) (before : Option Char) (lines : List Line) (nested : b.Nested) :
    (b.readLines before lines).Nested := by
  fun_induction readLines b before lines with
  | case1 b before => exact nested
  | case2 b before line following b' more read ih =>
      have after := read_line_nested b before line following nested
      rw [read] at after
      exact ih after

end Builder

theorem map_content_parted {ι κ σ : Type} (f : ι → σ → κ × σ) (block : Block ι) (s : σ)
    (parted : block.Parted) : (Block.mapContent f block s).1.Parted := by
  induction parted generalizing s with
  | paragraph content => exact .paragraph _
  | heading level content => exact .heading level _
  | quote children inside ih => exact .quote _ (map_contents_all f _ children s ih)
  | list start items => exact .list start _
  | code info content => exact .code info content
  | html lines => exact .html lines
  | rule => exact .rule
  | table columns head rows => exact .table columns _ _

theorem parse_parted (source : String) : AllParted (parse source) := by
  have empty : Builder.Nested {} := ⟨.nil, List.forall_mem_nil _⟩
  have built := Builder.read_lines_nested {} none (Line.ofText source.toList) empty
  exact map_contents_all _ _ _ _ fun draft member s =>
    map_content_parted _ draft s (Builder.finish_nested _ built draft member)

end MarkdownServer.Markdown
