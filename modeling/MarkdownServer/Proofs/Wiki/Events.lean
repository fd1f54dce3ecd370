import MarkdownServer.Proofs.Markdown.Sequences
import MarkdownServer.Proofs.Wiki.Markup
/- What the writer makes of any well-nested sequence of events, in whatever state it is. It only writes
   behind what stands in the current buffer and only keeps further pieces of code; all that was open
   stays open, and nothing else is. Inline events come to the markup of their tree. -/
set_option autoImplicit false

namespace MarkdownServer.Wiki

open Markdown (Document Event Inline Tag)

namespace Writer

theorem step_inlined (theme : Option String) (w : Writer) (event : Event) :
    w.step theme event.inlined = w.step theme event := by
  cases event <;> rfl

theorem inline_events_compose (theme : Option String) (w : Writer) (events : List Event)
    (closed : w.code = none) (nested : Event.Nested events)
    (inline : ∀ event ∈ events, event.isInline = true) :
    (∃ elements, Event.ofInlines elements = events.map Event.inlined) ∧
      ∀ elements, Event.ofInlines elements = events.map Event.inlined →
        events.foldl (step theme) w =
          w.append (inlinesMarkup w.kept.size elements) (inlinesCode elements) := by
  refine ⟨Event.inline_tree events nested inline, ?_⟩
  intro elements same
  rw [← write_inlines theme w elements closed, same, List.foldl_map]
  simp only [step_inlined]

def pictured : List Event :=
  [.text "p\x7b", .code "q"] ++ (Event.within (.image ⟨"u", ""⟩) [.text "v"] ++ [])

def linked : List Event := Event.within (.link false ⟨"u", ""⟩) pictured ++ [.html "<br>", .code "r"]

theorem linked_nested : Event.Nested linked := by
  have image : Event.Nested (Event.within (.image ⟨"u", ""⟩) [.text "v"] ++ []) :=
    .element _ _ _ rfl (Event.nested_single _ rfl) .nil
  have inner : Event.Nested pictured := .leaf _ _ rfl (.leaf _ _ rfl image)
  exact .element _ _ _ rfl inner (.leaf _ _ rfl (Event.nested_single _ rfl))

def linkedTree : List Inline :=
  [.link false ⟨"u", ""⟩ [.text "p\x7b", .code "q", .image ⟨"u", ""⟩ [.text "v"]], .html "<br>", .code "r"]

theorem inline_events_compose_linked :
    let w : Writer := { captures := [⟨.image ['o'], ['z']⟩], kept := #[['k']], lists := [.bullet] }
    Event.Nested linked ∧ (∀ event ∈ linked, event.isInline = true) ∧
      Event.ofInlines linkedTree = linked.map Event.inlined ∧
      linked.foldl (step none) w =
        w.append "[p\\\x7b\x001\x00!u|alt=v!|u]<br>\x002\x00".toList [codeSpan ['q'], codeSpan ['r']] := by
  have inline : ∀ event ∈ linked, event.isInline = true := by decide
  have tree : Event.ofInlines linkedTree = linked.map Event.inlined := rfl
  have markup : inlinesMarkup 1 linkedTree =
      "[p\\\x7b\x001\x00!u|alt=v!|u]<br>\x002\x00".toList := by decide +kernel
  refine ⟨linked_nested, inline, tree, ?_⟩
  rw [← markup]
  exact (inline_events_compose none _ linked rfl linked_nested inline).2 linkedTree tree

def Grows (w next : Writer) : Prop := ∃ text pieces, Extends w next text pieces

theorem grows_append (w : Writer) (text : List Char) (pieces : List (List Char)) :
    Grows w (w.append text pieces) := ⟨text, pieces, extends_append w text pieces⟩

theorem grows_refl (w : Writer) : Grows w w := by
  have same := grows_append w [] []
  rwa [append_nil] at same

theorem grows_trans (w next last : Writer) (first : Grows w next) (second : Grows next last) :
    Grows w last := by
  obtain ⟨text, pieces, first⟩ := first
  obtain ⟨more, others, second⟩ := second
  exact ⟨_, _, extends_trans w next last text more pieces others first second⟩

theorem grows_write (w : Writer) (text : List Char) : Grows w (w.write text) := by
  rw [write_append]
  exact grows_append w text []

theorem grows_in_table (w : Writer) (inHead : Bool) (cells : Nat) : Grows w (w.inTable inHead cells) :=
  ⟨[], [], inHead, cells, by rw [append_nil]⟩

theorem fresh_line_text (w : Writer) : ∃ text, w.freshLine = w.append text [] := by
  unfold freshLine
  split
  · exact ⟨[], (append_nil w).symm⟩
  · split
    · exact ⟨[], (append_nil w).symm⟩
    · exact ⟨_, write_append w _⟩

theorem grows_fresh_line (w : Writer) : Grows w w.freshLine := by
  obtain ⟨text, same⟩ := fresh_line_text w
  rw [same]
  exact grows_append w text []

theorem grows_keep (w : Writer) (piece : List Char) : Grows w (w.keep piece) := by
  rw [keep_append]
  exact grows_append w _ _

theorem grows_code (w next : Writer) (grows : Grows w next) : next.code = w.code := by
  obtain ⟨text, pieces, inHead, cells, rfl⟩ := grows
  exact append_code w text pieces

theorem grows_leaf (theme : Option String) (w : Writer) (event : Event) (single : event.isLeaf = true)
    (closed : w.code = none) : Grows w (w.step theme event) := by
  cases event with
  | start tag => cases single
  | stop tag => cases single
  | text content =>
      rw [step_text theme w content closed]
      exact grows_append w _ _
  | code content => exact grows_keep w _
  | html content => exact grows_write w _
  | inlineHtml content => exact grows_write w _
  | softBreak => exact grows_write w _
  | hardBreak => exact grows_write w _
  | rule => exact grows_write w _
  | task done => exact grows_write w _

theorem grows_framed (w next : Writer) (lists : List ListKind) (containers : List Container)
    (grows : Grows (w.framed lists containers) next) :
    Grows w (next.framed w.lists w.containers) ∧ next.lists = lists ∧ next.containers = containers := by
  obtain ⟨text, pieces, extended⟩ := grows
  obtain ⟨restored, own⟩ := extends_framed w next lists containers text pieces extended
  exact ⟨⟨text, pieces, restored⟩, own⟩

theorem release_in_table (w : Writer) (inHead : Bool) (cells : Nat) :
    (w.inTable inHead cells).release = w.release.inTable inHead cells := by
  obtain ⟨output, captures, kept, lists, containers, code, inHead', cells'⟩ := w
  cases captures with
  | nil => rfl
  | cons capture captures => cases captures <;> rfl

theorem grows_released (w next : Writer) (goal : Goal)
    (grows : Grows { w with captures := ⟨goal, []⟩ :: w.captures } next) : Grows w next.release := by
  obtain ⟨text, pieces, inHead, cells, rfl⟩ := grows
  exact ⟨_, pieces, inHead, cells, by rw [release_in_table, release_append]⟩

theorem list_opening (w : Writer) :
    ∃ opening, (if w.lists.isEmpty then w else w.freshLine) = w.append opening [] := by
  split
  · exact ⟨[], (append_nil w).symm⟩
  · exact fresh_line_text w

theorem grows_list (theme : Option String) (w next : Writer) (number : Option Nat)
    (grows : Grows (w.start (.list number)) next) : Grows w (next.stop theme (.list number)) := by
  obtain ⟨opening, started⟩ := list_opening w
  rw [list_opened w number opening started] at grows
  obtain ⟨inner, pieces, extended⟩ := grows
  exact ⟨_, pieces, list_closed theme w next number _ opening inner pieces extended⟩

theorem grows_item (theme : Option String) (w next : Writer) (grows : Grows (w.start .item) next) :
    Grows w (next.stop theme .item) := by
  rw [item_opened] at grows
  have ended := grows_trans _ _ _ grows (grows_fresh_line next)
  obtain ⟨inner, lists, containers⟩ := grows_framed _ next.freshLine _ _ ended
  obtain ⟨ownLists, ownContainers⟩ := append_frame w w.itemPrefix []
  rw [ownLists, ownContainers] at inner
  have closed : next.stop theme .item = next.freshLine.framed w.lists w.containers := by
    unfold stop
    dsimp only
    rw [← lists, containers]
    rfl
  rw [closed]
  exact grows_trans _ _ _ (grows_append w _ _) inner

theorem grows_quote (theme : Option String) (w next : Writer) (grows : Grows (w.start .quote) next) :
    Grows w (next.stop theme .quote) := by
  rw [quote_opened] at grows
  obtain ⟨inner, pieces, extended⟩ := grows
  exact ⟨_, pieces, quote_closed theme w next inner pieces extended⟩

theorem grows_written (w next : Writer) (text : List Char) (grows : Grows (w.write text) next) :
    Grows w next :=
  grows_trans _ _ _ (grows_write w text) grows

theorem grows_cell (w : Writer) : Grows w (w.start .tableCell) := by
  unfold start
  dsimp only
  split
  · exact grows_in_table w w.inHead (w.cells + 1)
  · exact grows_trans _ _ _ (grows_write w _) (grows_in_table _ _ _)

theorem start_code (w : Writer) (tag : Tag) (other : tag.isCode = false) :
    (w.start tag).code = w.code := by
  have written (v : Writer) (text : List Char) : (v.write text).code = v.code := by
    rw [write_append, append_code]
  cases tag with
  | code info => cases other
  | heading level => exact written w _
  | quote => exact written w _
  | list number =>
      obtain ⟨opening, started⟩ := list_opening w
      rw [list_opened w number opening started]
      exact append_code w opening []
  | item => exact written w _
  | tableHead => exact written (w.inTable true 0) _
  | tableRow => exact written (w.inTable w.inHead 0) _
  | tableCell => exact grows_code _ _ (grows_cell w)
  | styled style => exact written w _
  | _ => rfl

theorem grows_element (theme : Option String) (w next : Writer) (tag : Tag) (other : tag.isCode = false)
    (grows : Grows (w.start tag) next) : Grows w (next.stop theme tag) := by
  cases tag with
  | code info => cases other
  | paragraph =>
      unfold stop
      dsimp only
      split
      · exact grows
      · exact grows_trans _ _ _ grows (grows_write next _)
  | heading level => exact grows_trans _ _ _ (grows_written w next _ grows) (grows_write next _)
  | quote => exact grows_quote theme w next grows
  | html => exact grows_trans _ _ _ grows (grows_fresh_line next)
  | list number => exact grows_list theme w next number grows
  | item => exact grows_item theme w next grows
  | table columns => exact grows_trans _ _ _ grows (grows_write next _)
  | tableHead =>
      have opened := grows_trans _ _ _ (grows_in_table w true 0) (grows_written _ next _ grows)
      have written := grows_trans _ _ _ opened (grows_write next " ||\n".toList)
      exact grows_trans _ _ _ written (grows_in_table _ false (next.write " ||\n".toList).cells)
  | tableRow =>
      have opened := grows_trans _ _ _ (grows_in_table w w.inHead 0) (grows_written _ next _ grows)
      exact grows_trans _ _ _ opened (grows_write next _)
  | tableCell => exact grows_trans _ _ _ (grows_cell w) grows
  | styled style => exact grows_trans _ _ _ (grows_written w next _ grows) (grows_write next _)
  | link email target => exact grows_released w next _ grows
  | image target => exact grows_released w next _ grows

theorem code_texts (theme : Option String) (w : Writer) (code : OpenCode) (texts : List String) :
    (texts.map Event.text).foldl (step theme) { w with code := some code } =
      { w with code := some { code with text := (texts.flatMap String.toList).reverse ++ code.text } } := by
  induction texts generalizing code with
  | nil => rfl
  | cons content texts ih =>
      refine (ih { code with text := content.toList.reverse ++ code.text }).trans ?_
      simp

theorem write_code_block (theme : Option String) (w : Writer) (info : Option String)
    (texts : List String) (closed : w.code = none) :
    (Event.within (.code info) (texts.map .text)).foldl (step theme) w =
      w.append (placeholder w.kept.size ++ "\n\n".toList)
        [codeMacro (info.map Text.trim) theme (texts.flatMap String.toList)] := by
  have filled := code_texts theme w ⟨info.map Text.trim, []⟩ texts
  have start : w.step theme (.start (.code info)) = { w with code := some ⟨info.map Text.trim, []⟩ } := rfl
  rw [Event.within, List.foldl_cons, List.foldl_append, start, filled, List.foldl_cons, List.foldl_nil]
  have same : ({ w with code := none } : Writer) = w := by rw [← closed]
  unfold step stop
  dsimp only
  rw [same, List.append_nil, List.reverse_reverse, writeString, keep_append, write_append, append_append]
  rfl

theorem grows_code_block (theme : Option String) (w : Writer) (info : Option String)
    (texts : List String) (closed : w.code = none) :
    Grows w ((Event.within (.code info) (texts.map .text)).foldl (step theme) w) := by
  rw [write_code_block theme w info texts closed]
  exact grows_append w _ _

theorem grows_followed (theme : Option String) (w : Writer) (events rest : List Event)
    (closed : w.code = none) (first : Grows w (events.foldl (step theme) w))
    (more : ∀ next : Writer, next.code = none → Grows next (rest.foldl (step theme) next)) :
    Grows w ((events ++ rest).foldl (step theme) w) := by
  rw [List.foldl_append]
  exact grows_trans _ _ _ first (more _ ((grows_code _ _ first).trans closed))

theorem nested_grows (theme : Option String) (w : Writer) (events : List Event) (closed : w.code = none)
    (nested : Event.Nested events) : Grows w (events.foldl (step theme) w) := by
  induction nested generalizing w with
  | nil => exact grows_refl w
  | leaf event rest single _ ih =>
      exact grows_followed theme w [event] rest closed (grows_leaf theme w event single closed) ih
  | element tag inner rest other _ _ inside ih =>
      have opened : (w.start tag).code = none := (start_code w tag other).trans closed
      have first : Grows w ((Event.within tag inner).foldl (step theme) w) := by
        rw [Event.within, List.foldl_cons, List.foldl_append]
        exact grows_element theme w _ tag other (inside _ opened)
      exact grows_followed theme w _ rest closed first ih
  | code info texts rest _ ih =>
      exact grows_followed theme w _ rest closed (grows_code_block theme w info texts closed) ih

-- Nothing is opened, nothing is closed, and nothing written is taken back; buffers hold their text newest
-- first.
structure Undisturbed (w next : Writer) : Prop where
  lists : next.lists = w.lists
  containers : next.containers = w.containers
  code : next.code = w.code
  captures : next.captures = w.captures.modifyHead fun capture => { capture with text := next.buffer }
  output : w.captures ≠ [] → next.output = w.output
  buffer : w.buffer <:+ next.buffer
  kept : w.kept.toList <+: next.kept.toList

structure Settled (w : Writer) : Prop where
  captures : w.captures = []
  lists : w.lists = []
  containers : w.containers = []
  code : w.code = none
  finish : w.finish = w.output.reverse

theorem grows_undisturbed (w next : Writer) (grows : Grows w next) : Undisturbed w next := by
  obtain ⟨text, pieces, inHead, cells, rfl⟩ := grows
  have kept : w.kept.toList ++ pieces = (w.append text pieces).kept.toList := by
    rw [append_kept, Array.toList_append]
  obtain ⟨output, captures, pieces', lists, containers, code, inHead', cells'⟩ := w
  cases captures with
  | nil => exact ⟨rfl, rfl, rfl, rfl, fun opened => absurd rfl opened, ⟨_, rfl⟩, ⟨_, kept⟩⟩
  | cons capture captures => exact ⟨rfl, rfl, rfl, rfl, fun _ => rfl, ⟨_, rfl⟩, ⟨_, kept⟩⟩

theorem grows_settled (w : Writer) (grows : Grows {} w) : Settled w := by
  obtain ⟨text, pieces, inHead, cells, rfl⟩ := grows
  exact ⟨rfl, rfl, rfl, rfl, rfl⟩

-- The line ends that the end of a quote takes away all stand behind its start.
theorem quote_trimmed (w next : Writer) (grows : Grows (w.start .quote) next) :
    w.buffer <:+ next.buffer.dropWhile (· = '\n') := by
  rw [quote_opened] at grows
  obtain ⟨inner, pieces, inHead, cells, rfl⟩ := grows
  have trimmed := drop_while_behind (· = '\n') "\x7bquote\x7d\n".toList inner w.buffer '\x7d' (by decide)
    (by decide)
  obtain ⟨output, captures, kept, lists, containers, code, inHead', cells'⟩ := w
  cases captures <;> exact ⟨_, trimmed.symm⟩

theorem nested_events_settle (theme : Option String) (w : Writer) (events : List Event)
    (closed : w.code = none) (nested : Event.Nested events) :
    Undisturbed w (events.foldl (step theme) w) ∧
      (w.buffer <:+ (events.foldl (step theme) (w.start .quote)).buffer.dropWhile (· = '\n')) ∧
      Settled (events.foldl (step theme) {}) ∧
      ∀ document, Settled (ofDocument theme document) := by
  refine ⟨?discipline, ?quote, ?whole, ?documents⟩
  case discipline => exact grows_undisturbed _ _ (nested_grows theme w events closed nested)
  case quote =>
    have opened : (w.start .quote).code = none := (start_code w .quote rfl).trans closed
    exact quote_trimmed w _ (nested_grows theme _ events opened nested)
  case whole => exact grows_settled _ (nested_grows theme {} events rfl nested)
  case documents =>
    intro document
    exact grows_settled _ (nested_grows theme {} _ rfl (Event.blocks_nested document))

def quoted : List Event :=
  Event.within .quote (Event.within (.list none) (Event.within .item [.text "a"] ++ []) ++ []) ++
    (Event.within (.code (some "sh")) (["b\n", "c\n"].map .text) ++ [])

theorem quoted_nested : Event.Nested quoted := by
  have item : Event.Nested (Event.within .item [.text "a"] ++ []) :=
    .element _ _ _ rfl (Event.nested_single _ rfl) .nil
  have list : Event.Nested (Event.within (.list none) (Event.within .item [.text "a"] ++ []) ++ []) :=
    .element _ _ _ rfl item .nil
  exact .element _ _ _ rfl list (.code _ _ _ .nil)

theorem nested_events_settle_quoted :
    let w : Writer :=
      { output := ['\n'], captures := [⟨.image ['o'], ['z']⟩], lists := [.bullet], containers := [.item] }
    w.code = none ∧ Event.Nested quoted ∧ Undisturbed w (quoted.foldl (step none) w) ∧
      Settled (quoted.foldl (step none) {}) := by
  obtain ⟨discipline, -, whole, -⟩ := nested_events_settle none
    { output := ['\n'], captures := [⟨.image ['o'], ['z']⟩], lists := [.bullet], containers := [.item] }
    quoted rfl quoted_nested
  exact ⟨rfl, quoted_nested, discipline, whole⟩

end Writer
end MarkdownServer.Wiki
