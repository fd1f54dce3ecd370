import Mathlib.Data.List.TakeWhile
import MarkdownServer.Markdown.Source
import MarkdownServer.Wiki.Convert
/- The raw markup of a document by its tree. The writer takes events one by one; here is what a whole
   element comes to, and that the writer appends just that. -/
set_option autoImplicit false

namespace MarkdownServer.Wiki

open Markdown (Block Document Event HtmlLine Inline)

mutual
def inlineCode : Inline → List (List Char)
  | .text _ => []
  | .code content => [codeSpan content.toList]
  | .html _ => []
  | .softBreak => []
  | .hardBreak => []
  | .task _ => []
  | .styled _ children => inlinesCode children
  | .link _ _ children => inlinesCode children
  | .image _ children => inlinesCode children

def inlinesCode : List Inline → List (List Char)
  | [] => []
  | element :: elements => inlineCode element ++ inlinesCode elements
end

mutual
-- The markup of an element, with `n` pieces of code in front of it.
def inlineMarkup (n : Nat) : Inline → List Char
  | .text content => escapeText content.toList
  | .code _ => Writer.placeholder n
  | .html content => content.toList
  | .softBreak => ['\n']
  | .hardBreak => ['\n']
  | .task done => (if done then "(/) " else "(x) ").toList
  | .styled style children => Writer.styleMark style :: inlinesMarkup n children ++ [Writer.styleMark style]
  | .link email target children => (Goal.link email target.url.toList).render (inlinesMarkup n children)
  | .image target children => (Goal.image target.url.toList).render (inlinesMarkup n children)

def inlinesMarkup (n : Nat) : List Inline → List Char
  | [] => []
  | element :: elements =>
      inlineMarkup n element ++ inlinesMarkup (n + (inlineCode element).length) elements
end

namespace Writer

def append (w : Writer) (text : List Char) (pieces : List (List Char)) : Writer :=
  { w with kept := w.kept ++ pieces.toArray }.write text

theorem append_nil (w : Writer) : w.append [] [] = w := by
  obtain ⟨output, captures, kept, lists, containers, code, inHead, cells⟩ := w
  cases captures <;> simp [append, write, setBuffer, buffer]

theorem append_append (w : Writer) (text more : List Char) (pieces others : List (List Char)) :
    (w.append text pieces).append more others = w.append (text ++ more) (pieces ++ others) := by
  obtain ⟨output, captures, kept, lists, containers, code, inHead, cells⟩ := w
  cases captures <;> simp [append, write, setBuffer, buffer]

theorem write_append (w : Writer) (text : List Char) : w.write text = w.append text [] := by
  simp [append]

theorem keep_append (w : Writer) (piece : List Char) :
    w.keep piece = w.append (placeholder w.kept.size) [piece] := by
  simp [append, keep]

theorem append_kept (w : Writer) (text : List Char) (pieces : List (List Char)) :
    (w.append text pieces).kept = w.kept ++ pieces.toArray := by
  obtain ⟨output, captures, kept, lists, containers, code, inHead, cells⟩ := w
  cases captures <;> rfl

@[simp]
theorem append_size (w : Writer) (text : List Char) (pieces : List (List Char)) :
    (w.append text pieces).kept.size = w.kept.size + pieces.length := by
  simp [append_kept]

@[simp]
theorem append_code (w : Writer) (text : List Char) (pieces : List (List Char)) :
    (w.append text pieces).code = w.code := by
  obtain ⟨output, captures, kept, lists, containers, code, inHead, cells⟩ := w
  cases captures <;> rfl

theorem release_append (w : Writer) (goal : Goal) (text : List Char) (pieces : List (List Char)) :
    (({ w with captures := ⟨goal, []⟩ :: w.captures } : Writer).append text pieces).release =
      w.append (goal.render text) pieces := by
  simp [append, write, setBuffer, buffer, release]

theorem step_text (theme : Option String) (w : Writer) (content : String) (closed : w.code = none) :
    w.step theme (.text content) = w.append (escapeText content.toList) [] := by
  simp only [step, closed]
  exact write_append w _

mutual
theorem write_inline (theme : Option String) (w : Writer) (element : Inline) (closed : w.code = none) :
    (Event.ofInline element).foldl (step theme) w =
      w.append (inlineMarkup w.kept.size element) (inlineCode element) := by
  cases element with
  | text content => exact step_text theme w content closed
  | code content => exact keep_append w _
  | html content => exact write_append w _
  | softBreak => exact write_append w _
  | hardBreak => exact write_append w _
  | task done => exact write_append w _
  | styled style children =>
      have inner := write_inlines theme (w.append [styleMark style] []) children (by simpa using closed)
      rw [Event.ofInline, Event.within, List.foldl_cons, List.foldl_append]
      have opened : w.step theme (.start (.styled style)) = w.append [styleMark style] [] :=
        write_append w _
      rw [opened, inner, append_append, List.foldl_cons, List.foldl_nil]
      refine (write_append _ _).trans ?_
      rw [append_append]
      simp [inlineMarkup, inlineCode]
  | link email target children =>
      have inner := write_inlines theme
        { w with captures := ⟨.link email target.url.toList, []⟩ :: w.captures } children closed
      rw [Event.ofInline, Event.within, List.foldl_cons, List.foldl_append]
      refine (congrArg (step theme · (.stop (.link email target))) inner).trans ?_
      exact release_append w _ _ _
  | image target children =>
      have inner := write_inlines theme
        { w with captures := ⟨.image target.url.toList, []⟩ :: w.captures } children closed
      rw [Event.ofInline, Event.within, List.foldl_cons, List.foldl_append]
      refine (congrArg (step theme · (.stop (.image target))) inner).trans ?_
      exact release_append w _ _ _

theorem write_inlines (theme : Option String) (w : Writer) (elements : List Inline)
    (closed : w.code = none) :
    (Event.ofInlines elements).foldl (step theme) w =
      w.append (inlinesMarkup w.kept.size elements) (inlinesCode elements) := by
  cases elements with
  | nil => exact (append_nil w).symm
  | cons element elements =>
      rw [Event.ofInlines, List.foldl_append, write_inline theme w element closed,
        write_inlines theme _ elements (by simpa using closed), append_append, append_size]
      rfl
end

end Writer

-- Where a block is written: behind which character, in which lists, and whether right in an item.
structure Place where
  last : Option Char
  lists : List ListKind
  inItem : Bool

namespace Place

def behind (place : Place) (text : List Char) : Place :=
  { place with last := text.getLast?.or place.last }

def lineEnd (place : Place) : List Char :=
  match place.last with
  | none => []
  | some c => if c = '\n' then [] else ['\n']

def marker (place : Place) : List Char :=
  (if place.lists.isEmpty then ['*'] else place.lists.reverse.map ListKind.marker) ++ [' ']

end Place

def cellsCode (cells : List (List Inline)) : List (List Char) :=
  cells.flatMap inlinesCode

mutual
def blockCode (theme : Option String) : Block (List Inline) → List (List Char)
  | .paragraph content => inlinesCode content
  | .tight content => inlinesCode content
  | .heading _ content => inlinesCode content
  | .quote children => blocksCode theme children
  | .list _ items => itemsCode theme items
  | .code info content => [codeMacro (info.map Text.trim) theme content.toList]
  | .html _ => []
  | .rule => []
  | .table _ head rows => cellsCode head ++ rows.flatMap cellsCode

def blocksCode (theme : Option String) : List (Block (List Inline)) → List (List Char)
  | [] => []
  | block :: blocks => blockCode theme block ++ blocksCode theme blocks

def itemsCode (theme : Option String) : List (List (Block (List Inline))) → List (List Char)
  | [] => []
  | item :: items => blocksCode theme item ++ itemsCode theme items
end

def htmlMarkup (lines : List HtmlLine) : List Char :=
  lines.flatMap fun line => List.replicate line.padding ' ' ++ line.content.toList

def between (inHead : Bool) : List Char :=
  (if inHead then " || " else " | ").toList

def cellsMarkup (inHead first : Bool) (n : Nat) : List (List Inline) → List Char
  | [] => []
  | cell :: cells =>
      (if first then [] else between inHead) ++ inlinesMarkup n cell ++
        cellsMarkup inHead false (n + (inlinesCode cell).length) cells

def rowsMarkup (n : Nat) : List (List (List Inline)) → List Char
  | [] => []
  | row :: rows =>
      "| ".toList ++ cellsMarkup false true n row ++ " |\n".toList ++
        rowsMarkup (n + (cellsCode row).length) rows

mutual
def blockMarkup (theme : Option String) (place : Place) (n : Nat) : Block (List Inline) → List Char
  | .paragraph content => inlinesMarkup n content ++ if place.inItem then [] else "\n\n".toList
  | .tight content => inlinesMarkup n content
  | .heading level content =>
      ("h" ++ toString level ++ ". ").toList ++ inlinesMarkup n content ++ "\n\n".toList
  | .quote children =>
      Markdown.dropTrailing (· = '\n') ("\x7bquote\x7d\n".toList ++
        blocksMarkup theme ⟨some '\n', place.lists, false⟩ n children) ++ "\n\x7bquote\x7d\n\n".toList
  | .list number items =>
      let opening := if place.lists.isEmpty then [] else place.lineEnd
      let kind : ListKind := if number.isSome then .ordered else .bullet
      opening ++ itemsMarkup theme { place.behind opening with lists := kind :: place.lists } n items ++
        if place.lists.isEmpty then ['\n'] else []
  | .code _ _ => Writer.placeholder n ++ "\n\n".toList
  | .html lines => htmlMarkup lines ++ (place.behind (htmlMarkup lines)).lineEnd
  | .rule => "----\n\n".toList
  | .table _ head rows =>
      "|| ".toList ++ cellsMarkup true true n head ++ " ||\n".toList ++
        rowsMarkup (n + (cellsCode head).length) rows ++ ['\n']

def blocksMarkup (theme : Option String) (place : Place) (n : Nat) :
    List (Block (List Inline)) → List Char
  | [] => []
  | block :: blocks =>
      let text := blockMarkup theme place n block
      text ++ blocksMarkup theme (place.behind text) (n + (blockCode theme block).length) blocks

def itemsMarkup (theme : Option String) (place : Place) (n : Nat) :
    List (List (Block (List Inline))) → List Char
  | [] => []
  | item :: items =>
      let text := place.marker ++
        blocksMarkup theme { place.behind place.marker with inItem := true } n item
      let whole := text ++ (place.behind text).lineEnd
      whole ++ itemsMarkup theme (place.behind whole) (n + (blocksCode theme item).length) items
end

namespace Writer

structure Ready (w : Writer) : Prop where
  captures : w.captures = []
  code : w.code = none

def place (w : Writer) : Place :=
  ⟨w.output.head?, w.lists, w.containers.head? == some .item⟩

def inTable (w : Writer) (inHead : Bool) (cells : Nat) : Writer :=
  { w with inHead, cells }

theorem in_table_append (w : Writer) (inHead : Bool) (cells : Nat) (text : List Char)
    (pieces : List (List Char)) :
    (w.inTable inHead cells).append text pieces = (w.append text pieces).inTable inHead cells := by
  obtain ⟨output, captures, kept, lists, containers, code, inHead', cells'⟩ := w
  cases captures <;> rfl

theorem in_table_own (w : Writer) : w = w.inTable w.inHead w.cells := rfl

def Extends (w next : Writer) (text : List Char) (pieces : List (List Char)) : Prop :=
  ∃ inHead cells, next = (w.append text pieces).inTable inHead cells

theorem extends_append (w : Writer) (text : List Char) (pieces : List (List Char)) :
    Extends w (w.append text pieces) text pieces :=
  ⟨_, _, in_table_own _⟩

theorem extends_trans (w next last : Writer) (text more : List Char)
    (pieces others : List (List Char)) (first : Extends w next text pieces)
    (second : Extends next last more others) : Extends w last (text ++ more) (pieces ++ others) := by
  obtain ⟨inHead, cells, rfl⟩ := first
  obtain ⟨inHead', cells', rfl⟩ := second
  refine ⟨inHead', cells', ?_⟩
  rw [in_table_append, append_append]
  rfl

theorem extends_ready (w next : Writer) (text : List Char) (pieces : List (List Char))
    (ready : w.Ready) (extended : Extends w next text pieces) : next.Ready := by
  obtain ⟨inHead, cells, rfl⟩ := extended
  obtain ⟨output, captures, kept, lists, containers, code, inHead, cells⟩ := w
  obtain ⟨rfl, rfl⟩ := ready
  exact ⟨rfl, rfl⟩

theorem extends_size (w next : Writer) (text : List Char) (pieces : List (List Char))
    (extended : Extends w next text pieces) : next.kept.size = w.kept.size + pieces.length := by
  obtain ⟨inHead, cells, rfl⟩ := extended
  exact append_size w text pieces

theorem extends_place (w next : Writer) (text : List Char) (pieces : List (List Char))
    (ready : w.Ready) (extended : Extends w next text pieces) : next.place = w.place.behind text := by
  obtain ⟨inHead, cells, rfl⟩ := extended
  obtain ⟨output, captures, kept, lists, containers, code, inHead, cells⟩ := w
  obtain ⟨rfl, rfl⟩ := ready
  simp [place, Place.behind, append, write, setBuffer, buffer, inTable]

theorem behind_behind (place : Place) (text more : List Char) :
    (place.behind text).behind more = place.behind (text ++ more) := by
  simp [Place.behind, List.getLast?_append, Option.or_assoc]

theorem fresh_line_append (w : Writer) (ready : w.Ready) :
    w.freshLine = w.append w.place.lineEnd [] := by
  obtain ⟨output, captures, kept, lists, containers, code, inHead, cells⟩ := w
  obtain ⟨rfl, rfl⟩ := ready
  cases output with
  | nil => rfl
  | cons c output =>
      by_cases feed : c = '\n'
      · simp [freshLine, buffer, place, Place.lineEnd, append, write, setBuffer, feed]
      · simp [freshLine, buffer, place, Place.lineEnd, append, write, setBuffer, feed]

theorem cell_opened (theme : Option String) (w : Writer) (inHead : Bool) (count : Nat) :
    (w.inTable inHead count).step theme (.start .tableCell) =
      (w.append (if count = 0 then [] else between inHead) []).inTable inHead (count + 1) := by
  by_cases first : count = 0
  · rw [if_pos first, append_nil]
    simp [step, start, inTable, first]
  · rw [if_neg first, ← write_append]
    obtain ⟨output, captures, kept, lists, containers, code, inHead', cells'⟩ := w
    cases captures <;> cases inHead <;>
      simp [step, start, inTable, writeString, write, setBuffer, buffer, between, first]

theorem write_cell (theme : Option String) (w : Writer) (inHead : Bool) (count : Nat)
    (cell : List Inline) (closed : w.code = none) :
    (Event.within .tableCell (Event.ofInlines cell)).foldl (step theme) (w.inTable inHead count) =
      (w.append ((if count = 0 then [] else between inHead) ++ inlinesMarkup w.kept.size cell)
        (inlinesCode cell)).inTable inHead (count + 1) := by
  have opened : ((w.append (if count = 0 then [] else between inHead) []).inTable inHead
      (count + 1)).code = none := (append_code w _ _).trans closed
  have size : ((w.append (if count = 0 then [] else between inHead) []).inTable inHead
      (count + 1)).kept.size = w.kept.size := append_size w _ []
  rw [Event.within, List.foldl_cons, List.foldl_append, cell_opened, write_inlines theme _ cell opened,
    size, in_table_append, append_append]
  rfl

theorem write_cells (theme : Option String) (w : Writer) (inHead : Bool) (count : Nat)
    (cells : List (List Inline)) (closed : w.code = none) :
    (Event.ofCells cells).foldl (step theme) (w.inTable inHead count) =
      (w.append (cellsMarkup inHead (count = 0) w.kept.size cells) (cellsCode cells)).inTable inHead
        (count + cells.length) := by
  induction cells generalizing w count with
  | nil =>
      simp only [cellsMarkup, cellsCode, List.flatMap_nil, append_nil]
      rfl
  | cons cell cells ih =>
      rw [Event.ofCells, List.flatMap_cons, List.foldl_append, write_cell theme w inHead count cell closed]
      refine (ih _ (count + 1) ((append_code w _ _).trans closed)).trans ?_
      rw [append_append, append_size, Nat.add_assoc, Nat.add_comm 1]
      simp [cellsMarkup, cellsCode]

theorem extends_write (w next : Writer) (text more : List Char) (pieces : List (List Char))
    (extended : Extends w next text pieces) : Extends w (next.write more) (text ++ more) pieces := by
  have further := extends_append next more []
  rw [← write_append] at further
  simpa using extends_trans w next _ text more pieces [] extended further

theorem write_html_lines (theme : Option String) (w : Writer) (lines : List HtmlLine)
    (closed : w.code = none) :
    (lines.flatMap Event.ofHtmlLine).foldl (step theme) w = w.append (htmlMarkup lines) [] := by
  induction lines generalizing w with
  | nil => exact (append_nil w).symm
  | cons line lines ih =>
      have spaces : escapeText (List.replicate line.padding ' ') = List.replicate line.padding ' ' := by
        induction line.padding with
        | zero => rfl
        | succ count ih => rw [List.replicate_succ, escapeText, List.flatMap_cons, ← escapeText, ih]; rfl
      have first : (Event.ofHtmlLine line).foldl (step theme) w =
          w.append (List.replicate line.padding ' ' ++ line.content.toList) [] := by
        unfold Event.ofHtmlLine
        split
        · rename_i flush
          rw [flush]
          exact write_append w _
        · rw [List.singleton_append, List.foldl_cons, step_text theme w _ closed, String.toList_ofList,
            spaces]
          exact (write_append _ _).trans (append_append w _ _ [] [])
      rw [List.flatMap_cons, List.foldl_append, first, ih _ (by simpa using closed), append_append]
      rfl

theorem in_table_write (w : Writer) (inHead : Bool) (cells : Nat) (text : List Char) :
    (w.inTable inHead cells).write text = (w.append text []).inTable inHead cells := by
  rw [write_append, in_table_append]

theorem write_row (theme : Option String) (w : Writer) (count : Nat) (row : List (List Inline))
    (closed : w.code = none) :
    (Event.within .tableRow (Event.ofCells row)).foldl (step theme) (w.inTable false count) =
      (w.append ("| ".toList ++ cellsMarkup false true w.kept.size row ++ " |\n".toList)
        (cellsCode row)).inTable false row.length := by
  have opened : (w.inTable false count).step theme (.start .tableRow) =
      (w.append "| ".toList []).inTable false 0 := in_table_write w false 0 _
  have cells := write_cells theme (w.append "| ".toList []) false 0 row (by simpa using closed)
  rw [append_append, append_size] at cells
  rw [Event.within, List.foldl_cons, List.foldl_append, opened, cells]
  refine (in_table_write _ false _ _).trans ?_
  rw [append_append]
  simp

theorem write_rows (theme : Option String) (w : Writer) (count : Nat)
    (rows : List (List (List Inline))) (closed : w.code = none) :
    ∃ cells, (rows.flatMap fun row => Event.within .tableRow (Event.ofCells row)).foldl (step theme)
        (w.inTable false count) =
      (w.append (rowsMarkup w.kept.size rows) (rows.flatMap cellsCode)).inTable false cells := by
  induction rows generalizing w count with
  | nil => exact ⟨count, by simp [rowsMarkup, append_nil]⟩
  | cons row rows ih =>
      obtain ⟨cells, rest⟩ := ih (w.append ("| ".toList ++ cellsMarkup false true w.kept.size row ++
        " |\n".toList) (cellsCode row)) row.length (by simpa using closed)
      refine ⟨cells, ?_⟩
      rw [List.flatMap_cons, List.foldl_append, write_row theme w count row closed, rest, append_append,
        append_size]
      rfl

theorem write_table (theme : Option String) (w : Writer) (columns : List Markdown.Alignment)
    (head : List (List Inline)) (rows : List (List (List Inline))) (ready : w.Ready) :
    Extends w ((Event.ofBlock (.table columns head rows)).foldl (step theme) w)
      (blockMarkup theme w.place w.kept.size (.table columns head rows))
      (blockCode theme (.table columns head rows)) := by
  have opened : w.step theme (.start .tableHead) = (w.append "|| ".toList []).inTable true 0 :=
    in_table_write w true 0 _
  have cells := write_cells theme (w.append "|| ".toList []) true 0 head (by simpa using ready.code)
  rw [append_append, append_size] at cells
  have first : (Event.within .tableHead (Event.ofCells head)).foldl (step theme) w =
      (w.append ("|| ".toList ++ cellsMarkup true true w.kept.size head ++ " ||\n".toList)
        (cellsCode head)).inTable false head.length := by
    have closed (w : Writer) (count : Nat) : (w.inTable true count).step theme (.stop .tableHead) =
        (w.append " ||\n".toList []).inTable false count := by
      change { (w.inTable true count).write " ||\n".toList with inHead := false } = _
      rw [in_table_write]
      rfl
    rw [Event.within, List.foldl_cons, List.foldl_append, opened, cells]
    refine (closed _ _).trans ?_
    rw [append_append, List.append_nil, Nat.zero_add]
    rfl
  obtain ⟨count, rest⟩ := write_rows theme (w.append ("|| ".toList ++
    cellsMarkup true true w.kept.size head ++ " ||\n".toList) (cellsCode head)) head.length rows
    (by simpa using ready.code)
  refine ⟨false, count, ?_⟩
  have start : w.step theme (.start (.table columns)) = w := rfl
  rw [Event.ofBlock, Event.within, List.foldl_cons, List.foldl_append, List.foldl_append, start, first, rest]
  refine (in_table_write _ false count ['\n']).trans ?_
  rw [append_append, append_append, append_size, List.append_nil, ← List.append_assoc]
  rfl

theorem write_code (theme : Option String) (w : Writer) (info : Option String) (content : String) :
    (Event.ofBlock (.code info content)).foldl (step theme) w =
      ({ w with code := none } : Writer).append (Writer.placeholder w.kept.size ++ "\n\n".toList)
        [codeMacro (info.map Text.trim) theme content.toList] := by
  obtain ⟨output, captures, kept, lists, containers, code, inHead, cells⟩ := w
  cases captures <;>
    simp [Event.ofBlock, Event.within, step, start, stop, keep, append, writeString, write, setBuffer, buffer]

def framed (w : Writer) (lists : List ListKind) (containers : List Container) : Writer :=
  { w with lists, containers }

theorem framed_append (w : Writer) (lists : List ListKind) (containers : List Container)
    (text : List Char) (pieces : List (List Char)) :
    (w.framed lists containers).append text pieces = (w.append text pieces).framed lists containers := by
  obtain ⟨output, captures, kept, lists', containers', code, inHead, cells⟩ := w
  cases captures <;> rfl

theorem append_frame (w : Writer) (text : List Char) (pieces : List (List Char)) :
    (w.append text pieces).lists = w.lists ∧ (w.append text pieces).containers = w.containers := by
  obtain ⟨output, captures, kept, lists', containers', code, inHead, cells⟩ := w
  cases captures <;> exact ⟨rfl, rfl⟩

theorem extends_framed (w next : Writer) (lists : List ListKind) (containers : List Container)
    (text : List Char) (pieces : List (List Char))
    (extended : Extends (w.framed lists containers) next text pieces) :
    Extends w (next.framed w.lists w.containers) text pieces ∧ next.lists = lists ∧
      next.containers = containers := by
  obtain ⟨inHead, cells, rfl⟩ := extended
  obtain ⟨ownLists, ownContainers⟩ := append_frame w text pieces
  rw [framed_append]
  refine ⟨⟨inHead, cells, ?_⟩, rfl, rfl⟩
  rw [← ownLists, ← ownContainers]
  rfl

theorem framed_ready (w : Writer) (lists : List ListKind) (containers : List Container)
    (ready : w.Ready) : (w.framed lists containers).Ready :=
  ⟨ready.captures, ready.code⟩

theorem framed_place (w : Writer) (text : List Char) (lists : List ListKind)
    (containers : List Container) (ready : w.Ready) :
    ((w.append text []).framed lists containers).place =
      ⟨(w.place.behind text).last, lists, containers.head? == some .item⟩ := by
  rw [← extends_place w _ _ _ ready (extends_append w text [])]
  rfl

theorem framed_size (w : Writer) (text : List Char) (lists : List ListKind)
    (containers : List Container) :
    ((w.append text []).framed lists containers).kept.size = w.kept.size :=
  append_size w text []

theorem drop_while_behind (drops : Char → Bool) (front text output : List Char) (c : Char)
    (member : c ∈ front) (kept : drops c = false) :
    (text.reverse ++ (front.reverse ++ output)).dropWhile drops =
      (Markdown.dropTrailing drops (front ++ text)).reverse ++ output := by
  rw [← List.append_assoc, ← List.reverse_append, List.dropWhile_append, Markdown.dropTrailing,
    List.reverse_reverse, if_neg]
  intro empty
  have all := List.dropWhile_eq_nil_iff.mp (List.isEmpty_iff.mp empty) c (by simp [member])
  rw [kept] at all
  cases all

theorem container_opened (w : Writer) (text : List Char) (container : Container) :
    ({ w.write text with containers := container :: (w.write text).containers } : Writer) =
      (w.append text []).framed w.lists (container :: w.containers) := by
  obtain ⟨lists, containers⟩ := append_frame w text []
  rw [write_append, ← lists, ← containers]
  rfl

theorem quote_opened (w : Writer) :
    w.start .quote = (w.append "\x7bquote\x7d\n".toList []).framed w.lists (.quote :: w.containers) :=
  container_opened w _ .quote

theorem item_opened (w : Writer) :
    w.start .item = (w.append w.itemPrefix []).framed w.lists (.item :: w.containers) :=
  container_opened w _ .item

theorem list_opened (w : Writer) (number : Option Nat) (opening : List Char)
    (started : (if w.lists.isEmpty then w else w.freshLine) = w.append opening []) :
    w.start (.list number) =
      (w.append opening []).framed ((if number.isSome then .ordered else .bullet) :: w.lists)
        w.containers := by
  obtain ⟨lists, containers⟩ := append_frame w opening []
  unfold Writer.start
  dsimp only
  rw [started, ← lists, ← containers]
  rfl

theorem quote_closed (theme : Option String) (w next : Writer) (inner : List Char)
    (pieces : List (List Char))
    (extended : Extends ((w.append "\x7bquote\x7d\n".toList []).framed w.lists (.quote :: w.containers))
      next inner pieces) :
    Extends w (next.stop theme .quote) (Markdown.dropTrailing (· = '\n')
      ("\x7bquote\x7d\n".toList ++ inner) ++ "\n\x7bquote\x7d\n\n".toList) pieces := by
  obtain ⟨inHead, cells, rfl⟩ := extended
  have trimmed := drop_while_behind (· = '\n') "\x7bquote\x7d\n".toList inner w.buffer '\x7d' (by decide)
    (by decide)
  obtain ⟨output, captures, kept, lists, containers, code, inHead', cells'⟩ := w
  refine ⟨inHead, cells, ?_⟩
  cases captures <;>
    simp only [stop, append, framed, inTable, write, writeString, setBuffer, buffer] at trimmed ⊢ <;>
    rw [trimmed] <;>
    simp

theorem list_closed (theme : Option String) (w next : Writer) (number : Option Nat) (kind : ListKind)
    (opening inner : List Char) (pieces : List (List Char))
    (extended : Extends ((w.append opening []).framed (kind :: w.lists) w.containers) next inner pieces) :
    Extends w (next.stop theme (.list number))
      (opening ++ inner ++ if w.lists.isEmpty then ['\n'] else []) pieces := by
  obtain ⟨inHead, cells, rfl⟩ := extended
  obtain ⟨output, captures, kept, lists, containers, code, inHead', cells'⟩ := w
  refine ⟨inHead, cells, ?_⟩
  unfold stop
  dsimp only
  cases captures <;> cases lists <;> simp [append, framed, inTable, write, setBuffer, buffer]

theorem item_closed (theme : Option String) (w next : Writer) (inner : List Char)
    (pieces : List (List Char)) (ready : w.Ready)
    (extended : Extends ((w.append w.place.marker []).framed w.lists (.item :: w.containers)) next inner
      pieces) :
    Extends w (next.stop theme .item) (w.place.marker ++ inner ++
      (w.place.behind (w.place.marker ++ inner)).lineEnd) pieces := by
  have started := extends_append w w.place.marker []
  have frame := append_frame w w.place.marker []
  have ready' := extends_ready w _ _ _ ready started
  have nextReady := extends_ready _ _ _ _ (framed_ready _ _ _ ready') extended
  have nextPlace := extends_place _ _ _ _ (framed_ready _ _ _ ready') extended
  have place := extends_place w _ _ _ ready started
  have last : next.place.lineEnd = (w.place.behind (w.place.marker ++ inner)).lineEnd := by
    have same : next.place.last = (w.place.behind (w.place.marker ++ inner)).last := by
      rw [nextPlace, ← behind_behind, ← place]
      rfl
    unfold Place.lineEnd
    rw [same]
  obtain ⟨restored, lists, containers⟩ := extends_framed _ _ _ _ _ _ extended
  have stopped : next.stop theme .item =
      (next.framed w.lists w.containers).append next.place.lineEnd [] := by
    obtain ⟨ownLists, ownContainers⟩ := append_frame next next.place.lineEnd []
    unfold stop
    dsimp only
    rw [fresh_line_append next nextReady, framed_append, ownContainers, containers]
    rw [← lists, ← ownLists]
    rfl
  rw [frame.1, frame.2] at restored
  rw [stopped, last]
  have closed := extends_append (next.framed w.lists w.containers)
    (w.place.behind (w.place.marker ++ inner)).lineEnd []
  simpa using extends_trans _ _ _ _ _ _ _ (extends_trans _ _ _ _ _ _ _ started restored) closed

mutual
theorem write_block (theme : Option String) (w : Writer) (block : Block (List Inline))
    (ready : w.Ready) :
    Extends w ((Event.ofBlock block).foldl (step theme) w) (blockMarkup theme w.place w.kept.size block)
      (blockCode theme block) := by
  cases block with
  | paragraph content =>
      have inner := write_inlines theme w content ready.code
      have start : w.step theme (.start .paragraph) = w := rfl
      rw [Event.ofBlock, Event.within, List.foldl_cons, List.foldl_append, start, inner]
      have written := extends_append w (inlinesMarkup w.kept.size content) (inlinesCode content)
      obtain ⟨_, containers⟩ := append_frame w (inlinesMarkup w.kept.size content) (inlinesCode content)
      have stopped : (w.append (inlinesMarkup w.kept.size content) (inlinesCode content)).step theme
          (.stop .paragraph) = (w.append (inlinesMarkup w.kept.size content) (inlinesCode content)).write
            (if w.place.inItem then [] else "\n\n".toList) := by
        by_cases item : w.containers.head? = some .item
        · simp [step, stop, containers, item, place, write_append, append_nil]
        · simp [step, stop, containers, item, place, writeString]
      rw [List.foldl_cons, List.foldl_nil, stopped]
      exact extends_write w _ _ _ _ written
  | tight content =>
      have inner := write_inlines theme w content ready.code
      rw [Event.ofBlock, inner]
      exact extends_append w _ _
  | heading level content =>
      have start : w.step theme (.start (.heading level)) =
        w.append ("h" ++ toString level ++ ". ").toList [] := write_append w _
      have inner := write_inlines theme (w.append ("h" ++ toString level ++ ". ").toList []) content
        (by simpa using ready.code)
      rw [append_append, append_size] at inner
      rw [Event.ofBlock, Event.within, List.foldl_cons, List.foldl_append, start, inner]
      exact extends_write w _ _ _ _ (extends_append w _ _)
  | quote children =>
      have start : w.step theme (.start .quote) =
          (w.append "\x7bquote\x7d\n".toList []).framed w.lists (.quote :: w.containers) := quote_opened w
      have ready' := extends_ready w _ _ _ ready (extends_append w "\x7bquote\x7d\n".toList [])
      have inner := write_blocks theme
        ((w.append "\x7bquote\x7d\n".toList []).framed w.lists (.quote :: w.containers)) children
        (framed_ready _ _ _ ready')
      rw [framed_place w _ _ _ ready, framed_size] at inner
      rw [Event.ofBlock, Event.within, List.foldl_cons, List.foldl_append, start]
      exact quote_closed theme w _ _ _ inner
  | list number items =>
      have opened : (if w.lists.isEmpty then w else w.freshLine) =
          w.append (if w.lists.isEmpty then [] else w.place.lineEnd) [] := by
        by_cases outermost : w.lists.isEmpty = true
        · rw [if_pos outermost, if_pos outermost, append_nil]
        · rw [if_neg outermost, if_neg outermost, fresh_line_append w ready]
      have start : w.step theme (.start (.list number)) =
          (w.append (if w.lists.isEmpty then [] else w.place.lineEnd) []).framed
            ((if number.isSome then .ordered else .bullet) :: w.lists) w.containers :=
        list_opened w number _ opened
      have ready' := extends_ready w _ _ _ ready
        (extends_append w (if w.lists.isEmpty then [] else w.place.lineEnd) [])
      have inner := write_items theme ((w.append (if w.lists.isEmpty then [] else w.place.lineEnd) []).framed
        ((if number.isSome then .ordered else .bullet) :: w.lists) w.containers) items
        (framed_ready _ _ _ ready')
      rw [framed_place w _ _ _ ready, framed_size] at inner
      rw [Event.ofBlock, Event.within, List.foldl_cons, List.foldl_append, start]
      exact list_closed theme w _ number _ _ _ _ inner
  | code info content =>
      rw [write_code, ← ready.code]
      exact extends_append w _ _
  | html lines =>
      have start : w.step theme (.start .html) = w := rfl
      have inner := write_html_lines theme w lines ready.code
      have written := extends_append w (htmlMarkup lines) []
      have ready' := extends_ready w _ _ _ ready written
      rw [Event.ofBlock, Event.within, List.foldl_cons, List.foldl_append, start, inner]
      have stopped : (w.append (htmlMarkup lines) []).step theme (.stop .html) =
          (w.append (htmlMarkup lines) []).write (w.place.behind (htmlMarkup lines)).lineEnd := by
        rw [← extends_place w _ _ _ ready written, write_append]
        exact fresh_line_append _ ready'
      rw [List.foldl_cons, List.foldl_nil, stopped]
      exact extends_write w _ _ _ _ written
  | rule =>
      have start : w.step theme .rule = w.append "----\n\n".toList [] := write_append w _
      rw [Event.ofBlock, List.foldl_cons, List.foldl_nil, start]
      exact extends_append w _ _
  | table columns head rows => exact write_table theme w columns head rows ready

theorem write_blocks (theme : Option String) (w : Writer) (blocks : List (Block (List Inline)))
    (ready : w.Ready) :
    Extends w ((Event.ofBlocks blocks).foldl (step theme) w)
      (blocksMarkup theme w.place w.kept.size blocks) (blocksCode theme blocks) := by
  cases blocks with
  | nil =>
      have same := extends_append w [] []
      rwa [append_nil] at same
  | cons block blocks =>
      have first := write_block theme w block ready
      have rest := write_blocks theme _ blocks (extends_ready w _ _ _ ready first)
      rw [extends_place w _ _ _ ready first, extends_size w _ _ _ first] at rest
      rw [Event.ofBlocks, List.foldl_append]
      exact extends_trans w _ _ _ _ _ _ first rest

theorem write_items (theme : Option String) (w : Writer) (items : List (List (Block (List Inline))))
    (ready : w.Ready) :
    Extends w ((Event.ofItems items).foldl (step theme) w)
      (itemsMarkup theme w.place w.kept.size items) (itemsCode theme items) := by
  cases items with
  | nil =>
      have same := extends_append w [] []
      rwa [append_nil] at same
  | cons item items =>
      have start : w.step theme (.start .item) =
          (w.append w.place.marker []).framed w.lists (.item :: w.containers) := item_opened w
      have ready' := extends_ready w _ _ _ ready (extends_append w w.place.marker [])
      have inner := write_blocks theme ((w.append w.place.marker []).framed w.lists (.item :: w.containers))
        item (framed_ready _ _ _ ready')
      rw [framed_place w _ _ _ ready, framed_size] at inner
      have first := item_closed theme w _ _ _ ready inner
      have rest := write_items theme _ items (extends_ready w _ _ _ ready first)
      rw [extends_place w _ _ _ ready first, extends_size w _ _ _ first] at rest
      rw [Event.ofItems, List.foldl_append, Event.within, List.foldl_cons, List.foldl_append, start]
      exact extends_trans w _ _ _ _ _ _ first rest
end

theorem of_document_finish (theme : Option String) (document : Document) :
    (Writer.ofDocument theme document).finish = blocksMarkup theme ⟨none, [], false⟩ 0 document ∧
      (Writer.ofDocument theme document).kept.toList = blocksCode theme document := by
  obtain ⟨inHead, cells, written⟩ := write_blocks theme {} document ⟨rfl, rfl⟩
  unfold ofDocument Document.events
  rw [written]
  simp [finish, append, write, setBuffer, buffer, inTable, place]

end Writer
end MarkdownServer.Wiki
