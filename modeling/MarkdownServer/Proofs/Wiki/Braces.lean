import MarkdownServer.Proofs.Wiki.Page
/- Braces of text on a page. Each gets a backslash in front of it, but backslashes of the text get none.
   So a brace is escaped unless an odd number of backslashes stands in front of it already. -/
set_option autoImplicit false

namespace MarkdownServer.Wiki

open Markdown (Block Document Event HtmlLine Inline Solid runLength)
open Text (isBlank)

def isBrace (c : Char) : Bool := c == '\x7b' || c == '\x7d'

-- A character behind a text is escaped by an odd number of backslashes.
def Escaped (front : List Char) : Prop := runLength '\\' front.reverse % 2 = 1

instance (front : List Char) : Decidable (Escaped front) :=
  inferInstanceAs (Decidable (runLength '\\' front.reverse % 2 = 1))

theorem run_length_to (front more : List Char) (c d : Char) (other : d ≠ c) :
    runLength c (front ++ d :: more) = runLength c front := by
  induction front with
  | nil => simp [runLength, other]
  | cons e front ih =>
      unfold runLength at ih ⊢
      by_cases same : (e == c) = true
      · simp only [List.cons_append, List.takeWhile_cons, same, if_true, List.length_cons, ih]
      · simp [same]

theorem run_length_more (text : List Char) :
    runLength '\\' (text ++ ['\\']).reverse = runLength '\\' text.reverse + 1 := by
  simp [runLength]

theorem run_length_other (text : List Char) (c : Char) (other : c ≠ '\\') :
    runLength '\\' (text ++ [c]).reverse = 0 := by
  simp [runLength, other]

theorem escaped_more (front text : List Char)
    (same : runLength '\\' front.reverse = runLength '\\' text.reverse) :
    Escaped (front ++ ['\\']) ↔ ¬ Escaped text := by
  unfold Escaped
  rw [run_length_more, same]
  omega

theorem run_drop_blanks (text : List Char) :
    runLength '\\' (text.dropWhile isBlank).reverse = runLength '\\' text.reverse := by
  induction text with
  | nil => rfl
  | cons c text ih =>
      by_cases blank : isBlank c = true
      · have other : c ≠ '\\' := by
          rintro rfl
          exact absurd blank (by decide)
        rw [List.dropWhile_cons_of_pos blank, ih, List.reverse_cons]
        exact (run_length_to text.reverse [] '\\' c other).symm
      · rw [List.dropWhile_cons_of_neg blank]

theorem escape_text_run (text : List Char) :
    runLength '\\' (escapeText text).reverse = runLength '\\' text.reverse := by
  induction text using List.reverseRecOn with
  | nil => rfl
  | append_singleton text c ih =>
      have whole : escapeText (text ++ [c]) = escapeText text ++ escapeTextChar c := by
        simp [escapeText]
      rw [whole]
      by_cases brace : c = '\x7b' ∨ c = '\x7d'
      · have other : c ≠ '\\' := by obtain rfl | rfl := brace <;> decide
        have escape : escapeText text ++ escapeTextChar c = escapeText text ++ ['\\'] ++ [c] := by
          simp [escapeTextChar, brace]
        rw [escape, run_length_other _ c other, run_length_other _ c other]
      · rw [escapeTextChar, if_neg brace]
        by_cases backslash : c = '\\'
        · rw [backslash, run_length_more, run_length_more, ih]
        · rw [run_length_other _ c backslash, run_length_other _ c backslash]

theorem brace_cases (c : Char) (brace : isBrace c = true) : c = '\x7b' ∨ c = '\x7d' := by
  simpa [isBrace] using brace

theorem escape_text_brace (front back : List Char) (c : Char) (brace : isBrace c = true) :
    escapeText (front ++ c :: back) = escapeText front ++ '\\' :: c :: escapeText back ∧
      (Escaped (escapeText front ++ ['\\']) ↔ ¬ Escaped front) := by
  refine ⟨?_, escaped_more _ _ (escape_text_run front)⟩
  simp [escapeText, escapeTextChar, brace_cases c brace]

structure TextBrace where
  before : List Char
  brace : Char
deriving DecidableEq

namespace TextBrace

def behind (text : List Char) (b : TextBrace) : TextBrace :=
  { b with before := text ++ b.before }

def Stands (b : TextBrace) (text : List Char) : Prop :=
  b.before ++ ['\\', b.brace] <+: text ∧ isBrace b.brace = true

end TextBrace

def textBraces : List Char → List TextBrace
  | [] => []
  | c :: rest =>
      (if isBrace c then [⟨[], c⟩] else []) ++ (textBraces rest).map (.behind (escapeTextChar c))

mutual
def inlineBraces (n : Nat) : Inline → List TextBrace
  | .text content => textBraces content.toList
  | .styled style children => (inlinesBraces n children).map (.behind [Writer.styleMark style])
  | .link email _ children => if email then [] else (inlinesBraces n children).map (.behind ['['])
  | .image target children =>
      (inlinesBraces n children).map (.behind ('!' :: target.url.toList ++ "|alt=".toList))
  | _ => []

def inlinesBraces (n : Nat) : List Inline → List TextBrace
  | [] => []
  | element :: elements =>
      inlineBraces n element ++
        (inlinesBraces (n + (inlineCode element).length) elements).map (.behind (inlineMarkup n element))
end

def cellsBraces (inHead first : Bool) (n : Nat) : List (List Inline) → List TextBrace
  | [] => []
  | cell :: cells =>
      let bar := if first then [] else between inHead
      (inlinesBraces n cell).map (.behind bar) ++
        (cellsBraces inHead false (n + (inlinesCode cell).length) cells).map
          (.behind (bar ++ inlinesMarkup n cell))

def rowsBraces (n : Nat) : List (List (List Inline)) → List TextBrace
  | [] => []
  | row :: rows =>
      (cellsBraces false true n row).map (.behind "| ".toList) ++
        (rowsBraces (n + (cellsCode row).length) rows).map
          (.behind ("| ".toList ++ cellsMarkup false true n row ++ " |\n".toList))

mutual
def blockBraces (theme : Option String) (place : Place) (n : Nat) :
    Block (List Inline) → List TextBrace
  | .paragraph content => inlinesBraces n content
  | .tight content => inlinesBraces n content
  | .heading level content =>
      (inlinesBraces n content).map (.behind ("h" ++ toString level ++ ". ").toList)
  | .quote children =>
      (blocksBraces theme ⟨some '\n', place.lists, false⟩ n children).map
        (.behind "\x7bquote\x7d\n".toList)
  | .list number items =>
      let opening := if place.lists.isEmpty then [] else place.lineEnd
      let kind : ListKind := if number.isSome then .ordered else .bullet
      (itemsBraces theme { place.behind opening with lists := kind :: place.lists } n items).map
        (.behind opening)
  | .table _ head rows =>
      (cellsBraces true true n head).map (.behind "|| ".toList) ++
        (rowsBraces (n + (cellsCode head).length) rows).map
          (.behind ("|| ".toList ++ cellsMarkup true true n head ++ " ||\n".toList))
  | _ => []

def blocksBraces (theme : Option String) (place : Place) (n : Nat) :
    List (Block (List Inline)) → List TextBrace
  | [] => []
  | block :: blocks =>
      let text := blockMarkup theme place n block
      blockBraces theme place n block ++
        (blocksBraces theme (place.behind text) (n + (blockCode theme block).length) blocks).map
          (.behind text)

def itemsBraces (theme : Option String) (place : Place) (n : Nat) :
    List (List (Block (List Inline))) → List TextBrace
  | [] => []
  | item :: items =>
      let inside := { place.behind place.marker with inItem := true }
      let text := place.marker ++ blocksMarkup theme inside n item
      let whole := text ++ (place.behind text).lineEnd
      (blocksBraces theme inside n item).map (.behind place.marker) ++
        (itemsBraces theme (place.behind whole) (n + (blocksCode theme item).length) items).map
          (.behind whole)
end

def documentBraces (theme : Option String) (document : Document) : List TextBrace :=
  blocksBraces theme ⟨none, [], false⟩ 0 document

def hides : Markdown.Tag → Bool
  | .code _ => true
  | .link email _ => email
  | _ => false

-- The text of events outside of such elements; `depth` counts those that are open.
def openText (depth : Nat) : List Event → List Char
  | [] => []
  | .start tag :: rest => openText (if hides tag then depth + 1 else depth) rest
  | .stop tag :: rest => openText (if hides tag then depth - 1 else depth) rest
  | .text content :: rest => (if depth = 0 then content.toList else []) ++ openText depth rest
  | _ :: rest => openText depth rest

theorem open_text_payload (depth : Nat) (events : List Event) :
    (openText depth events).Sublist (events.flatMap payload) := by
  induction events generalizing depth with
  | nil => exact List.Sublist.refl _
  | cons event events ih =>
      rw [List.flatMap_cons]
      cases event with
      | text content =>
          rw [openText]
          refine List.Sublist.append ?_ (ih depth)
          split
          · exact List.Sublist.refl _
          · exact List.nil_sublist _
      | _ => exact (ih _).trans (List.sublist_append_right _ _)

def Counted (events : List Event) (braces : List Char) : Prop :=
  ∀ depth more, (openText depth (events ++ more)).filter isBrace =
    (if depth = 0 then braces else []) ++ (openText depth more).filter isBrace

theorem counted_nil : Counted [] [] := by
  intro depth more
  simp

theorem counted_append (events others : List Event) (braces more : List Char)
    (first : Counted events braces) (second : Counted others more) :
    Counted (events ++ others) (braces ++ more) := by
  intro depth rest
  rw [List.append_assoc, first, second]
  by_cases outside : depth = 0
  · simp [outside]
  · simp [outside]

theorem counted_text (content : String) : Counted [.text content] (content.toList.filter isBrace) := by
  intro depth more
  by_cases outside : depth = 0
  · simp [openText, outside]
  · simp [openText, outside]

theorem counted_within (tag : Markdown.Tag) (events : List Event) (braces : List Char)
    (inside : Counted events braces) :
    Counted (Event.within tag events) (if hides tag then [] else braces) := by
  intro depth more
  have inner := inside (if hides tag then depth + 1 else depth) (.stop tag :: more)
  have opened : Event.within tag events ++ more = .start tag :: (events ++ .stop tag :: more) := by
    simp [Event.within]
  rw [opened, openText, inner, openText]
  by_cases hidden : hides tag = true
  · simp [hidden]
  · simp [hidden]

@[simp]
theorem braces_behind (text : List Char) (braces : List TextBrace) :
    (braces.map (.behind text)).map TextBrace.brace = braces.map TextBrace.brace := by
  simp [TextBrace.behind]

theorem text_braces_all (text : List Char) :
    (textBraces text).map TextBrace.brace = text.filter isBrace := by
  induction text with
  | nil => rfl
  | cons c text ih =>
      rw [textBraces, List.map_append, braces_behind, ih, List.filter_cons]
      by_cases brace : isBrace c = true
      · simp [brace]
      · simp [brace]

mutual
theorem inline_counted (n : Nat) (element : Inline) :
    Counted (Event.ofInline element) ((inlineBraces n element).map TextBrace.brace) := by
  cases element with
  | text content =>
      rw [inlineBraces, text_braces_all]
      exact counted_text content
  | styled style children =>
      rw [inlineBraces, braces_behind]
      exact counted_within (.styled style) _ _ (inlines_counted n children)
  | link email target children =>
      have inner := counted_within (.link email target) _ _ (inlines_counted n children)
      rw [inlineBraces]
      cases email with
      | true => exact inner
      | false =>
          rw [if_neg (by decide), braces_behind]
          exact inner
  | image target children =>
      rw [inlineBraces, braces_behind]
      exact counted_within (.image target) _ _ (inlines_counted n children)
  | _ => exact fun depth more => by simp [Event.ofInline, inlineBraces, openText]

theorem inlines_counted (n : Nat) (elements : List Inline) :
    Counted (Event.ofInlines elements) ((inlinesBraces n elements).map TextBrace.brace) := by
  cases elements with
  | nil => exact counted_nil
  | cons element elements =>
      rw [inlinesBraces, List.map_append, braces_behind]
      exact counted_append _ _ _ _ (inline_counted n element) (inlines_counted _ elements)
end

theorem cells_counted (inHead first : Bool) (n : Nat) (cells : List (List Inline)) :
    Counted (Event.ofCells cells) ((cellsBraces inHead first n cells).map TextBrace.brace) := by
  induction cells generalizing first n with
  | nil => exact counted_nil
  | cons cell cells ih =>
      rw [cellsBraces, List.map_append, braces_behind, braces_behind]
      exact counted_append _ _ _ _ (counted_within .tableCell _ _ (inlines_counted n cell)) (ih false _)

theorem rows_counted (n : Nat) (rows : List (List (List Inline))) :
    Counted (rows.flatMap fun row => Event.within .tableRow (Event.ofCells row))
      ((rowsBraces n rows).map TextBrace.brace) := by
  induction rows generalizing n with
  | nil => exact counted_nil
  | cons row rows ih =>
      rw [rowsBraces, List.map_append, braces_behind, braces_behind]
      exact counted_append _ _ _ _
        (counted_within .tableRow _ _ (cells_counted false true n row)) (ih _)

theorem html_counted (lines : List HtmlLine) : Counted (lines.flatMap Event.ofHtmlLine) [] := by
  induction lines with
  | nil => exact counted_nil
  | cons line lines ih =>
      have padding (count : Nat) : (List.replicate count ' ').filter isBrace = [] := by
        refine List.filter_eq_nil_iff.mpr fun c member => ?_
        rw [List.eq_of_mem_replicate member]
        decide
      have own : Counted (Event.ofHtmlLine line) [] := by
        intro depth more
        by_cases flush : line.padding = 0
        · simp [Event.ofHtmlLine, openText, flush]
        · by_cases outside : depth = 0
          · simp [Event.ofHtmlLine, openText, flush, outside, padding]
          · simp [Event.ofHtmlLine, openText, flush, outside]
      exact counted_append _ _ _ _ own ih

section
variable (theme : Option String)

mutual
theorem block_counted (place : Place) (n : Nat) (block : Block (List Inline)) :
    Counted (Event.ofBlock block) ((blockBraces theme place n block).map TextBrace.brace) := by
  cases block with
  | paragraph content => exact counted_within .paragraph _ _ (inlines_counted n content)
  | tight content => exact inlines_counted n content
  | heading level content =>
      rw [blockBraces, braces_behind]
      exact counted_within (.heading level) _ _ (inlines_counted n content)
  | quote children =>
      rw [blockBraces, braces_behind]
      exact counted_within .quote _ _ (blocks_counted _ n children)
  | list number items =>
      rw [blockBraces, braces_behind]
      exact counted_within (.list number) _ _ (items_counted _ n items)
  | code info content => exact counted_within (.code info) _ _ (counted_text content)
  | html lines => exact counted_within .html _ _ (html_counted lines)
  | rule => exact fun depth more => by simp [Event.ofBlock, blockBraces, openText]
  | table columns head rows =>
      rw [blockBraces, List.map_append, braces_behind, braces_behind]
      have top := counted_within .tableHead _ _ (cells_counted true true n head)
      exact counted_within (.table columns) _ _ (counted_append _ _ _ _ top (rows_counted _ rows))

theorem blocks_counted (place : Place) (n : Nat) (blocks : List (Block (List Inline))) :
    Counted (Event.ofBlocks blocks) ((blocksBraces theme place n blocks).map TextBrace.brace) := by
  cases blocks with
  | nil => exact counted_nil
  | cons block blocks =>
      rw [blocksBraces, List.map_append, braces_behind]
      exact counted_append _ _ _ _ (block_counted place n block) (blocks_counted _ _ blocks)

theorem items_counted (place : Place) (n : Nat) (items : List (List (Block (List Inline)))) :
    Counted (Event.ofItems items) ((itemsBraces theme place n items).map TextBrace.brace) := by
  cases items with
  | nil => exact counted_nil
  | cons item items =>
      rw [itemsBraces, List.map_append, braces_behind, braces_behind]
      exact counted_append _ _ _ _ (counted_within .item _ _ (blocks_counted _ n item))
        (items_counted _ _ items)
end

end

theorem document_braces_all (theme : Option String) (document : Document) :
    (documentBraces theme document).map TextBrace.brace =
      (openText 0 document.events).filter isBrace := by
  have counted := blocks_counted theme ⟨none, [], false⟩ 0 document 0 []
  simpa [openText, documentBraces, Document.events] using counted.symm

section
variable (b : TextBrace) (text : List Char)

theorem brace_stands_append (more : List Char) (stands : b.Stands text) : b.Stands (text ++ more) :=
  ⟨stands.1.trans (List.prefix_append text more), stands.2⟩

theorem brace_stands_behind (front : List Char) (stands : b.Stands text) :
    (b.behind front).Stands (front ++ text) := by
  refine ⟨?_, stands.2⟩
  rw [TextBrace.behind, List.append_assoc]
  exact (List.prefix_append_right_inj front).mpr stands.1

theorem brace_stands_trimmed (stands : b.Stands text) :
    b.Stands (Markdown.dropTrailing (· = '\n') text) := by
  obtain ⟨⟨more, rfl⟩, brace⟩ := stands
  have solid : decide (b.brace = '\n') = false := by
    refine decide_eq_false fun feed => ?_
    rw [feed] at brace
    cases brace
  refine ⟨⟨Markdown.dropTrailing (· = '\n') more, ?_⟩, brace⟩
  have kept := drop_trailing_to (· = '\n') (b.before ++ ['\\']) more b.brace solid
  simpa using kept.symm

end

def AllStand (braces : List TextBrace) (text : List Char) : Prop := ∀ b ∈ braces, b.Stands text

theorem text_braces_stand (text : List Char) : AllStand (textBraces text) (escapeText text) := by
  induction text with
  | nil => exact List.forall_mem_nil _
  | cons c text ih =>
      rw [textBraces, escape_text_cons]
      refine List.forall_mem_append.mpr ⟨fun b member => ?_, fun b member => ?_⟩
      · split at member
        · rename_i brace
          cases List.mem_singleton.mp member
          have escape : escapeTextChar c = ['\\', c] := by simp [escapeTextChar, brace_cases c brace]
          rw [escape]
          exact ⟨List.prefix_append _ _, brace⟩
        · cases member
      · obtain ⟨inner, inside, rfl⟩ := List.mem_map.mp member
        exact brace_stands_behind inner _ _ (ih inner inside)

theorem braces_stand_enclosed (braces : List TextBrace) (front text back : List Char)
    (stand : AllStand braces text) :
    AllStand (braces.map (.behind front)) (front ++ text ++ back) := by
  intro b member
  obtain ⟨inner, inside, rfl⟩ := List.mem_map.mp member
  exact brace_stands_append _ _ back (brace_stands_behind inner text front (stand inner inside))

theorem braces_stand_append (braces others : List TextBrace) (text more : List Char)
    (first : AllStand braces text) (second : AllStand others more) :
    AllStand (braces ++ others.map (.behind text)) (text ++ more) := by
  have later := braces_stand_enclosed others text more [] second
  rw [List.append_nil] at later
  exact List.forall_mem_append.mpr
    ⟨fun b member => brace_stands_append b text more (first b member), later⟩

theorem link_braces_stand (url text : List Char) (braces : List TextBrace)
    (stand : AllStand braces text) :
    AllStand (braces.map (.behind ['['])) ((Goal.link false url).render text) := by
  intro b member
  obtain ⟨inner, inside, rfl⟩ := List.mem_map.mp member
  have stands := stand inner inside
  have opened (back : List Char) : (inner.behind ['[']).Stands ('[' :: text ++ back) :=
    brace_stands_append _ _ back (brace_stands_behind inner text ['['] stands)
  unfold Goal.render
  dsimp only
  split
  · rename_i bare
    obtain empty | same := bare
    · rw [List.isEmpty_iff.mp empty] at stands
      obtain ⟨opening, -⟩ := stands
      exact absurd (List.prefix_nil.mp opening) (by simp)
    · rw [← same]
      exact opened [']']
  · simpa using opened ('|' :: url ++ [']'])

theorem image_braces_stand (url text : List Char) (braces : List TextBrace)
    (stand : AllStand braces text) :
    AllStand (braces.map (.behind ('!' :: url ++ "|alt=".toList))) ((Goal.image url).render text) := by
  intro b member
  unfold Goal.render
  dsimp only
  split
  · rename_i empty
    obtain ⟨inner, inside, rfl⟩ := List.mem_map.mp member
    obtain ⟨opening, -⟩ := stand inner inside
    rw [List.isEmpty_iff.mp empty] at opening
    exact absurd (List.prefix_nil.mp opening) (by simp)
  · exact braces_stand_enclosed braces _ text ['!'] stand b member

mutual
theorem inline_braces_stand (n : Nat) (element : Inline) :
    AllStand (inlineBraces n element) (inlineMarkup n element) := by
  cases element with
  | text content => exact text_braces_stand content.toList
  | styled style children =>
      exact braces_stand_enclosed _ [Writer.styleMark style] _ _ (inlines_braces_stand n children)
  | link email target children =>
      rw [inlineBraces]
      cases email with
      | true => exact List.forall_mem_nil _
      | false => exact link_braces_stand target.url.toList _ _ (inlines_braces_stand n children)
  | image target children => exact image_braces_stand target.url.toList _ _ (inlines_braces_stand n children)
  | _ => exact List.forall_mem_nil _

theorem inlines_braces_stand (n : Nat) (elements : List Inline) :
    AllStand (inlinesBraces n elements) (inlinesMarkup n elements) := by
  cases elements with
  | nil => exact List.forall_mem_nil _
  | cons element elements =>
      exact braces_stand_append _ _ _ _ (inline_braces_stand n element) (inlines_braces_stand _ elements)
end

theorem cells_braces_stand (inHead first : Bool) (n : Nat) (cells : List (List Inline)) :
    AllStand (cellsBraces inHead first n cells) (cellsMarkup inHead first n cells) := by
  induction cells generalizing first n with
  | nil => exact List.forall_mem_nil _
  | cons cell cells ih =>
      have own := braces_stand_enclosed _ (if first then [] else between inHead) _ []
        (inlines_braces_stand n cell)
      rw [List.append_nil] at own
      exact braces_stand_append _ _ _ _ own (ih false _)

theorem rows_braces_stand (n : Nat) (rows : List (List (List Inline))) :
    AllStand (rowsBraces n rows) (rowsMarkup n rows) := by
  induction rows generalizing n with
  | nil => exact List.forall_mem_nil _
  | cons row rows ih =>
      have own := braces_stand_enclosed _ "| ".toList _ " |\n".toList (cells_braces_stand false true n row)
      exact braces_stand_append _ _ _ _ own (ih _)

section
variable (theme : Option String)

mutual
theorem block_braces_stand (place : Place) (n : Nat) (block : Block (List Inline)) :
    AllStand (blockBraces theme place n block) (blockMarkup theme place n block) := by
  cases block with
  | paragraph content =>
      exact fun b member => brace_stands_append b _ _ (inlines_braces_stand n content b member)
  | tight content => exact inlines_braces_stand n content
  | heading level content =>
      exact braces_stand_enclosed _ _ _ "\n\n".toList (inlines_braces_stand n content)
  | quote children =>
      have inner := braces_stand_enclosed _ "\x7bquote\x7d\n".toList _ []
        (blocks_braces_stand ⟨some '\n', place.lists, false⟩ n children)
      rw [List.append_nil] at inner
      exact fun b member => brace_stands_append b _ _ (brace_stands_trimmed b _ (inner b member))
  | list number items => exact braces_stand_enclosed _ _ _ _ (items_braces_stand _ n items)
  | table columns head rows =>
      have top := braces_stand_enclosed _ "|| ".toList _ " ||\n".toList (cells_braces_stand true true n head)
      have whole := braces_stand_append _ _ _ _ top (rows_braces_stand (n + (cellsCode head).length) rows)
      exact fun b member => brace_stands_append b _ ['\n'] (whole b member)
  | _ => exact List.forall_mem_nil _

theorem blocks_braces_stand (place : Place) (n : Nat) (blocks : List (Block (List Inline))) :
    AllStand (blocksBraces theme place n blocks) (blocksMarkup theme place n blocks) := by
  cases blocks with
  | nil => exact List.forall_mem_nil _
  | cons block blocks =>
      exact braces_stand_append _ _ _ _ (block_braces_stand place n block) (blocks_braces_stand _ _ blocks)

theorem items_braces_stand (place : Place) (n : Nat) (items : List (List (Block (List Inline)))) :
    AllStand (itemsBraces theme place n items) (itemsMarkup theme place n items) := by
  cases items with
  | nil => exact List.forall_mem_nil _
  | cons item items =>
      have own := braces_stand_enclosed _ place.marker _
        (place.behind (place.marker ++ blocksMarkup theme { place.behind place.marker with inItem := true }
          n item)).lineEnd (blocks_braces_stand { place.behind place.marker with inItem := true } n item)
      exact braces_stand_append _ _ _ _ own (items_braces_stand _ _ items)
end

end

namespace Glyph

-- What is no part of a placeholder stands in the markup as it is.
theorem spell_split (n : Nat) (glyphs : List Glyph) (front back : List Char) (c : Char)
    (outside : ∀ m, c ∉ Writer.placeholder m) (spelled : spell n glyphs = front ++ c :: back) :
    ∃ before after, glyphs = before ++ .plain c :: after ∧ spell n before = front ∧
      spell (n + (pieces before).length) after = back := by
  induction glyphs generalizing n front with
  | nil => simp [spell] at spelled
  | cons glyph glyphs ih =>
      cases glyph with
      | plain d =>
          cases front with
          | nil =>
              cases spelled
              exact ⟨[], glyphs, rfl, rfl, rfl⟩
          | cons e front =>
              obtain ⟨rfl, rest⟩ := List.cons.inj spelled
              obtain ⟨before, after, rfl, rfl, rfl⟩ := ih n front rest
              exact ⟨.plain d :: before, after, rfl, rfl, rfl⟩
      | code piece =>
          have later (front : List Char) (rest : spell (n + 1) glyphs = front ++ c :: back) :
              ∃ before after, .code piece :: glyphs = before ++ .plain c :: after ∧
                spell n before = Writer.placeholder n ++ front ∧
                spell (n + (pieces before).length) after = back := by
            obtain ⟨before, after, rfl, rfl, rfl⟩ := ih (n + 1) front rest
            refine ⟨.code piece :: before, after, rfl, rfl, ?_⟩
            rw [pieces, List.length_cons, Nat.add_assoc, Nat.add_comm 1]
          obtain ⟨left, rfl, rest⟩ | ⟨left, whole, rest⟩ := List.append_eq_append_iff.mp spelled
          · exact later left rest
          · cases left with
            | nil =>
                rw [List.append_nil] at whole
                rw [← whole]
                simpa using later [] rest.symm
            | cons d left =>
                obtain ⟨rfl, -⟩ := List.cons.inj rest
                exact absurd (whole ▸ List.mem_append_right front List.mem_cons_self) (outside n)

theorem backslash_stays : ¬ Drops Cleanup.Spare (.plain '\\') := by
  rintro (same | same) <;> cases same

theorem spell_last_other (n : Nat) (glyphs : List Glyph) (glyph : Glyph) (other : glyph ≠ .plain '\\') :
    runLength '\\' (spell n (glyphs ++ [glyph])).reverse = 0 := by
  rw [spell_append]
  cases glyph with
  | plain c => exact run_length_other _ c fun same => other (same ▸ rfl)
  | code piece =>
      rw [spell, spell, List.append_nil, Writer.placeholder, ← List.append_assoc]
      exact run_length_other _ '\x00' (by decide)

theorem print_last_other (glyphs : List Glyph) (glyph : Glyph) (other : glyph ≠ .plain '\\')
    (braced : ∀ piece, glyph = .code piece → Braced piece) :
    runLength '\\' (print (glyphs ++ [glyph])).reverse = 0 := by
  rw [print_append]
  cases glyph with
  | plain c => exact run_length_other _ c fun same => other (same ▸ rfl)
  | code piece =>
      obtain ⟨-, closing⟩ := braced piece rfl
      obtain ⟨front, rfl⟩ := List.getLast?_eq_some_iff.mp closing
      rw [print, print, List.append_nil, ← List.append_assoc]
      exact run_length_other _ '\x7d' (by decide)

theorem squeezed_run (n : Nat) (glyphs cut : List Glyph)
    (squeezed : Squeezed (Drops Cleanup.Spare) glyphs cut)
    (braced : ∀ piece ∈ pieces cut, Braced piece) :
    runLength '\\' (print cut).reverse = runLength '\\' (spell n glyphs).reverse := by
  induction glyphs using List.reverseRecOn generalizing cut with
  | nil =>
      cases squeezed
      rfl
  | append_singleton glyphs glyph ih =>
      by_cases backslash : glyph = .plain '\\'
      · subst backslash
        obtain ⟨cut', rest, rfl, first, nothing⟩ :=
          squeezed_apart glyphs [] cut (.plain '\\') backslash_stays squeezed
        cases nothing
        rw [pieces_append] at braced
        have inner := ih cut' first fun piece member => braced piece (List.mem_append_left _ member)
        rw [print_append, spell_append]
        exact (run_length_more _).trans (inner ▸ (run_length_more _).symm)
      · have last := squeezed_last _ _ squeezed
        rw [List.getLast?_concat] at last
        obtain ⟨cut', rfl⟩ := List.getLast?_eq_some_iff.mp last
        rw [spell_last_other n glyphs glyph backslash]
        refine print_last_other cut' glyph backslash fun piece same => braced piece ?_
        rw [pieces_append, same]
        exact List.mem_append_right _ List.mem_cons_self

end Glyph

theorem brace_solid (c : Char) (brace : isBrace c = true) :
    (∀ m, c ∉ Writer.placeholder m) ∧ ¬ Cleanup.Spare c ∧ isBlank c = false := by
  refine ⟨fun m member => ?_, ?_⟩
  · obtain rfl | digit := Glyph.placeholder_made m c member
    · cases brace
    · obtain rfl | rfl := brace_cases c brace <;> cases digit
  · obtain rfl | rfl := brace_cases c brace <;> decide

theorem backslash_outside (m : Nat) : '\\' ∉ Writer.placeholder m := by
  intro member
  obtain same | digit := Glyph.placeholder_made m _ member
  · cases same
  · cases digit

theorem trim_around (front back : List Char) (c : Char) (solid : isBlank c = false) :
    Text.trimBlanks (front ++ c :: back) =
      front.dropWhile isBlank ++ c :: Markdown.dropTrailing isBlank back := by
  have leading := drop_leading_to isBlank front back c solid
  have trailing := drop_trailing_to isBlank (front.dropWhile isBlank) back c solid
  calc
    Text.trimBlanks (front ++ c :: back) =
        Markdown.dropTrailing isBlank ((front ++ c :: back).dropWhile isBlank) := rfl
    _ = _ := by rw [leading, trailing]

theorem trim_between (front middle back : List Char) (c d : Char) (solid : isBlank c = false)
    (solid' : isBlank d = false) :
    Text.trimBlanks (front ++ c :: (middle ++ d :: back)) =
      front.dropWhile isBlank ++ c :: (middle ++ d :: Markdown.dropTrailing isBlank back) := by
  rw [trim_around front _ c solid, drop_trailing_to isBlank middle back d solid']

/- The place of a brace on a page: behind what the passes leave of the markup in front of it, and a
   backslash. -/
structure TextBrace.Placed (b : TextBrace) (w : Writer) (page front back : List Char) : Prop where
  page : page = front ++ '\\' :: b.brace :: back
  passed : ∃ raw more cut rest, w.finish = Glyph.spell 0 (raw ++ .plain '\\' :: .plain b.brace :: more) ∧
    b.before = Glyph.spell 0 raw ∧ Glyph.pieces raw ++ Glyph.pieces more = w.kept.toList ∧
    Squeezed (Glyph.Drops Cleanup.Spare) raw cut ∧ Squeezed (Glyph.Drops Cleanup.Spare) more rest ∧
    front = (Glyph.print cut).dropWhile isBlank ∧
    back = Markdown.dropTrailing isBlank (Glyph.print rest) ++ ['\n']
  run : runLength '\\' front.reverse = runLength '\\' b.before.reverse

theorem brace_placed (theme : Option String) (document : Document) (made : document.Made Solid)
    (b : TextBrace) (stands : b.Stands (Writer.ofDocument theme document).finish) :
    ∃ front back, b.Placed (Writer.ofDocument theme document) (pageOf theme document) front back := by
  obtain ⟨raw, cut, carried, squeezed, -, printed⟩ := page_spelled theme document made
  have kept := (Writer.of_document_finish theme document).2
  obtain ⟨⟨after, whole⟩, brace⟩ := stands
  obtain ⟨outside, stays, solid⟩ := brace_solid b.brace brace
  -- The backslash and the brace are glyphs of their own.
  rw [List.append_assoc, List.cons_append, List.singleton_append, ← carried.spelled] at whole
  obtain ⟨first, others, rfl, before, rest⟩ :=
    Glyph.spell_split 0 raw b.before (b.brace :: after) '\\' backslash_outside whole.symm
  obtain ⟨none, more, rfl, empty, -⟩ := Glyph.spell_split _ others [] after b.brace outside rest
  cases Glyph.spell_nil _ none empty
  obtain ⟨left, tail, rfl, ahead, others⟩ :=
    squeezed_apart first _ cut (.plain '\\') Glyph.backslash_stays squeezed
  obtain ⟨nothing, right, rfl, gone, behind⟩ := squeezed_apart [] more tail (.plain b.brace) stays others
  cases gone
  have pieces := carried.own
  have braced := carried.braced
  have thin := squeezed_thinned _ _ ahead
  rw [← kept] at pieces
  rw [← carried.own, Glyph.pieces_append, ← Glyph.thinned_pieces _ _ _ thin] at braced
  refine ⟨_, _, ?_, ⟨first, more, left, right, carried.spelled.symm, before.symm, ?_, ahead, behind,
    rfl, rfl⟩, ?_⟩
  · have trimmed := trim_between (Glyph.print left) [] (Glyph.print right) '\\' b.brace (by decide) solid
    rw [List.nil_append, List.nil_append] at trimmed
    rw [printed, Glyph.print_append, List.nil_append, Glyph.print, Glyph.print, trimmed]
    simp
  · rw [← pieces, Glyph.pieces_append]
    rfl
  · rw [run_drop_blanks, ← before]
    exact Glyph.squeezed_run 0 first left ahead fun piece member =>
      braced piece (List.mem_append_left _ member)

theorem document_braces_stand (theme : Option String) (document : Document) :
    AllStand (documentBraces theme document) (Writer.ofDocument theme document).finish := by
  rw [(Writer.of_document_finish theme document).1]
  exact blocks_braces_stand theme _ 0 document

theorem blank_source_unbraced (theme : Option String) (source : String)
    (blank : Text.allBlank source = true) : documentBraces theme (Markdown.parse source) = [] := by
  have all := document_braces_all theme (Markdown.parse source)
  have none : (openText 0 (Markdown.parse source).events).filter isBrace = [] := by
    refine List.filter_eq_nil_iff.mpr fun c member brace => ?_
    have shown := blocks_shown (by decide) _ (Markdown.parse_blank source blank) c
      ((open_text_payload 0 _).subset member)
    exact Bool.noConfusion (shown.symm.trans (brace_solid c brace).2.2)
  rw [none] at all
  exact List.map_eq_nil_iff.mp all

/- A brace of a text gets one backslash, behind those that stand in front of it already. So it is escaped
   exactly where those leave it unescaped. -/
structure BracesEscaped (options : Options) (source page : String) : Prop where
  text : ∀ front back c, isBrace c = true →
    escapeText (front ++ c :: back) = escapeText front ++ '\\' :: c :: escapeText back ∧
      (Escaped (escapeText front ++ ['\\']) ↔ ¬ Escaped front)
  all : (documentBraces options.theme (Markdown.parse source)).map TextBrace.brace =
    (openText 0 (Markdown.parse source).events).filter isBrace
  placed : ∀ b ∈ documentBraces options.theme (Markdown.parse source), ∃ front back,
    b.Placed (Writer.ofDocument options.theme (Markdown.parse source)) page.toList front back ∧
      (Escaped (front ++ ['\\']) ↔ ¬ Escaped b.before)

theorem convert_escapes_braces (options : Options) (source page : String)
    (accepted : convert options source = .ok page) : BracesEscaped options source page where
  text := escape_text_brace
  all := document_braces_all options.theme (Markdown.parse source)
  placed b member := by
    obtain ⟨free, -, written⟩ := convert_ok options source page accepted
    by_cases blank : Text.allBlank source = true
    · rw [blank_source_unbraced options.theme source blank] at member
      cases member
    · obtain ⟨front, back, placed⟩ := brace_placed options.theme _ (Markdown.parse_solid source free) b
        (document_braces_stand options.theme _ b member)
      rw [written (Bool.eq_false_iff.mpr blank)]
      exact ⟨front, back, placed, escaped_more front b.before placed.run⟩

theorem convert_escapes_braces_behind :
    convert {} "*a* \x7bb\x7d" = .ok "_a_ \\\x7bb\\\x7d\n" ∧
    ∀ b ∈ documentBraces none (Markdown.parse "*a* \x7bb\x7d"), ∃ front back,
      "_a_ \\\x7bb\\\x7d\n".toList = front ++ '\\' :: b.brace :: back ∧ Escaped (front ++ ['\\']) := by
  have accepted : convert {} "*a* \x7bb\x7d" = .ok "_a_ \\\x7bb\\\x7d\n" := by decide +kernel
  have braces : documentBraces none (Markdown.parse "*a* \x7bb\x7d") =
      [⟨"_a_ ".toList, '\x7b'⟩, ⟨"_a_ \\\x7bb".toList, '\x7d'⟩] := by decide +kernel
  have free : ∀ b ∈ documentBraces none (Markdown.parse "*a* \x7bb\x7d"), ¬ Escaped b.before := by
    rw [braces]
    decide
  refine ⟨accepted, fun b member => ?_⟩
  obtain ⟨front, back, placed, escaped⟩ := (convert_escapes_braces {} _ _ accepted).placed b member
  exact ⟨front, back, placed.page, escaped.mpr (free b member)⟩

theorem brace_behind_backslash :
    convert {} "\\\\\x7bx\x7d" = .ok "\\\\\x7bx\\\x7d\n" ∧
    openText 0 (Markdown.parse "\\\\\x7bx\x7d").events = "\\\x7bx\x7d".toList ∧
    "\\\\\x7bx\\\x7d\n".toList = "\\\\".toList ++ '\x7b' :: "x\\\x7d\n".toList ∧
    ¬ Escaped "\\\\".toList ∧
    escapeText "\\\x7b".toList = "\\\\".toList ++ ['\x7b'] := by
  refine ⟨?_, ?_, ?_, ?_, ?_⟩
  · decide +kernel
  · decide +kernel
  · decide +kernel
  · decide +kernel
  · decide +kernel

end MarkdownServer.Wiki
