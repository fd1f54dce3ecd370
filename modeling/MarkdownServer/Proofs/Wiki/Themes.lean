import MarkdownServer.Proofs.Wiki.Macros
import MarkdownServer.Proofs.Wiki.Shape
/- Pages under different themes. The theme of a page stands in the headers of its code macros, and nothing
   else of the page depends on it: the raw markup does not have it, and the passes do not look at the code. -/
set_option autoImplicit false

namespace MarkdownServer.Wiki

open Markdown (Block Document Event Inline Solid)
open Rendering (Fault)

inductive Piece where
  | span (markup : List Char)
  | block (language : Option String) (text : List Char)

namespace Piece

def shown (theme : Option String) : Piece → List Char
  | .span markup => markup
  | .block language text => codeMacro language theme text

def isSpan : Piece → Bool
  | .span _ => true
  | .block _ _ => false

end Piece

def spansOf (content : List Inline) : List Piece :=
  (inlinesCode content).map .span

def cellSpans (cells : List (List Inline)) : List Piece :=
  cells.flatMap spansOf

mutual
def blockPieces : Block (List Inline) → List Piece
  | .paragraph content => spansOf content
  | .tight content => spansOf content
  | .heading _ content => spansOf content
  | .quote children => blocksPieces children
  | .list _ items => itemsPieces items
  | .code info content => [.block (info.map Text.trim) content.toList]
  | .html _ => []
  | .rule => []
  | .table _ head rows => cellSpans head ++ rows.flatMap cellSpans

def blocksPieces : List (Block (List Inline)) → List Piece
  | [] => []
  | block :: blocks => blockPieces block ++ blocksPieces blocks

def itemsPieces : List (List (Block (List Inline))) → List Piece
  | [] => []
  | item :: items => blocksPieces item ++ itemsPieces items
end

section
variable (theme : Option String)

theorem spans_shown (content : List Inline) :
    (spansOf content).map (Piece.shown theme) = inlinesCode content := by
  simp [spansOf, Piece.shown, Function.comp_def]

theorem cell_spans_shown (cells : List (List Inline)) :
    (cellSpans cells).map (Piece.shown theme) = cellsCode cells := by
  rw [cellSpans, cellsCode, List.map_flatMap]
  exact List.flatMap_congr fun cell _ => spans_shown theme cell

mutual
theorem block_pieces_shown (block : Block (List Inline)) :
    (blockPieces block).map (Piece.shown theme) = blockCode theme block := by
  cases block with
  | paragraph content => exact spans_shown theme content
  | tight content => exact spans_shown theme content
  | heading level content => exact spans_shown theme content
  | quote children => exact blocks_pieces_shown children
  | list number items => exact items_pieces_shown items
  | code info content => rfl
  | html lines => rfl
  | rule => rfl
  | table columns head rows =>
      rw [blockPieces, blockCode, List.map_append, cell_spans_shown, List.map_flatMap]
      rw [List.flatMap_congr fun row _ => cell_spans_shown theme row]

theorem blocks_pieces_shown (blocks : List (Block (List Inline))) :
    (blocksPieces blocks).map (Piece.shown theme) = blocksCode theme blocks := by
  cases blocks with
  | nil => rfl
  | cons block blocks =>
      rw [blocksPieces, blocksCode, List.map_append, block_pieces_shown block, blocks_pieces_shown blocks]

theorem items_pieces_shown (items : List (List (Block (List Inline)))) :
    (itemsPieces items).map (Piece.shown theme) = itemsCode theme items := by
  cases items with
  | nil => rfl
  | cons item items =>
      rw [itemsPieces, itemsCode, List.map_append, blocks_pieces_shown item, items_pieces_shown items]
end

theorem block_code_length (block : Block (List Inline)) :
    (blockCode theme block).length = (blockPieces block).length := by
  rw [← block_pieces_shown theme block, List.length_map]

theorem blocks_code_length (blocks : List (Block (List Inline))) :
    (blocksCode theme blocks).length = (blocksPieces blocks).length := by
  rw [← blocks_pieces_shown theme blocks, List.length_map]

end

section
variable (theme other : Option String)

theorem span_shown (piece : Piece) (span : piece.isSpan = true) : piece.shown theme = piece.shown other := by
  cases piece with
  | span markup => rfl
  | block language text => cases span

theorem spans_of_spans (content : List Inline) : ∀ piece ∈ spansOf content, piece.isSpan = true := by
  intro piece member
  obtain ⟨markup, -, rfl⟩ := List.mem_map.mp member
  rfl

theorem cell_spans_spans (cells : List (List Inline)) : ∀ piece ∈ cellSpans cells, piece.isSpan = true := by
  intro piece member
  obtain ⟨cell, -, inside⟩ := List.mem_flatMap.mp member
  exact spans_of_spans cell piece inside

end

def Codeless (events : List Event) : Prop := ∀ info, .start (.code info) ∉ events

theorem codeless_within (tag : Markdown.Tag) (events : List Event)
    (free : Codeless (Event.within tag events)) : Codeless events :=
  fun info member => free info (by simp [Event.within, member])

theorem codeless_append (events more : List Event) (free : Codeless (events ++ more)) :
    Codeless events ∧ Codeless more :=
  ⟨fun info member => free info (List.mem_append_left _ member),
    fun info member => free info (List.mem_append_right _ member)⟩

mutual
theorem block_pieces_spans (block : Block (List Inline)) (free : Codeless (Event.ofBlock block)) :
    ∀ piece ∈ blockPieces block, piece.isSpan = true := by
  cases block with
  | paragraph content => exact spans_of_spans content
  | tight content => exact spans_of_spans content
  | heading level content => exact spans_of_spans content
  | quote children => exact blocks_pieces_spans children (codeless_within _ _ free)
  | list number items => exact items_pieces_spans items (codeless_within _ _ free)
  | code info content => exact absurd List.mem_cons_self (free info)
  | html lines => exact List.forall_mem_nil _
  | rule => exact List.forall_mem_nil _
  | table columns head rows =>
      refine List.forall_mem_append.mpr ⟨cell_spans_spans head, fun piece member => ?_⟩
      obtain ⟨row, -, inside⟩ := List.mem_flatMap.mp member
      exact cell_spans_spans row piece inside

theorem blocks_pieces_spans (blocks : List (Block (List Inline))) (free : Codeless (Event.ofBlocks blocks)) :
    ∀ piece ∈ blocksPieces blocks, piece.isSpan = true := by
  cases blocks with
  | nil => exact List.forall_mem_nil _
  | cons block blocks =>
      obtain ⟨own, others⟩ := codeless_append _ _ free
      exact List.forall_mem_append.mpr ⟨block_pieces_spans block own, blocks_pieces_spans blocks others⟩

theorem items_pieces_spans (items : List (List (Block (List Inline))))
    (free : Codeless (Event.ofItems items)) : ∀ piece ∈ itemsPieces items, piece.isSpan = true := by
  cases items with
  | nil => exact List.forall_mem_nil _
  | cons item items =>
      obtain ⟨own, others⟩ := codeless_append _ _ free
      exact List.forall_mem_append.mpr
        ⟨blocks_pieces_spans item (codeless_within _ _ own), items_pieces_spans items others⟩
end

def themeParameter (language theme : Option String) : List Char :=
  match theme with
  | none => []
  | some name => (if macroHeader language none = [] then ':' else '|') :: ("theme=" ++ name).toList

theorem intercalate_concat (c : Char) (names : List (List Char)) (name last : List Char) :
    [c].intercalate (name :: names ++ [last]) = [c].intercalate (name :: names) ++ c :: last := by
  induction names generalizing name with
  | nil => simp [List.intercalate_cons_cons]
  | cons next names ih =>
      have rest := ih next
      rw [List.cons_append] at rest
      rw [List.cons_append, List.cons_append, List.intercalate_cons_cons, rest, List.intercalate_cons_cons]
      simp

theorem header_themed (language theme : Option String) :
    macroHeader language theme = macroHeader language none ++ themeParameter language theme := by
  cases theme with
  | none => simp [themeParameter]
  | some name =>
      have last : codeParameters language (some name) =
          codeParameters language none ++ ["theme=" ++ name] := by
        simp [codeParameters]
      unfold themeParameter macroHeader
      rw [last]
      cases codeParameters language none with
      | nil => simp
      | cons first names =>
          have joined := intercalate_concat '|' (names.map String.toList) first.toList
            ("theme=" ++ name).toList
          simpa using joined

theorem code_macro_themed (language theme : Option String) (text : List Char) :
    codeMacro language theme text = "\x7bcode".toList ++ macroHeader language none ++
      themeParameter language theme ++ '\x7d' :: ('\n' :: withoutLastFeed text ++ '\n' :: macroEnd) := by
  rw [code_macro_framed, header_themed]
  simp

section
variable (theme other : Option String)

mutual
-- Of the code, raw markup has the numbers only.
theorem block_markup_themeless (place : Place) (n : Nat) (block : Block (List Inline)) :
    blockMarkup theme place n block = blockMarkup other place n block := by
  cases block with
  | quote children => rw [blockMarkup, blockMarkup, blocks_markup_themeless _ n children]
  | list number items => rw [blockMarkup, blockMarkup, items_markup_themeless _ n items]
  | _ => rfl

theorem blocks_markup_themeless (place : Place) (n : Nat) (blocks : List (Block (List Inline))) :
    blocksMarkup theme place n blocks = blocksMarkup other place n blocks := by
  cases blocks with
  | nil => rfl
  | cons block blocks =>
      rw [blocksMarkup, blocksMarkup, block_markup_themeless place n block, block_code_length theme,
        block_code_length other, blocks_markup_themeless _ _ blocks]

theorem items_markup_themeless (place : Place) (n : Nat) (items : List (List (Block (List Inline)))) :
    itemsMarkup theme place n items = itemsMarkup other place n items := by
  cases items with
  | nil => rfl
  | cons item items =>
      rw [itemsMarkup, itemsMarkup, blocks_markup_themeless _ n item, blocks_code_length theme,
        blocks_code_length other, items_markup_themeless _ _ items]
end

theorem finish_themeless (document : Document) :
    (Writer.ofDocument theme document).finish = (Writer.ofDocument other document).finish := by
  rw [(Writer.of_document_finish theme document).1, (Writer.of_document_finish other document).1]
  exact blocks_markup_themeless theme other _ 0 document

end

namespace Glyph

def refill : List Glyph → List (List Char) → List Glyph
  | .plain c :: rest, pieces => .plain c :: refill rest pieces
  | .code _ :: rest, piece :: pieces => .code piece :: refill rest pieces
  | glyphs, _ => glyphs

theorem refill_spell (n : Nat) (glyphs : List Glyph) (pieces : List (List Char)) :
    spell n (refill glyphs pieces) = spell n glyphs := by
  fun_induction refill glyphs pieces generalizing n with
  | case1 c rest pieces ih => rw [spell, spell, ih]
  | case2 old rest piece pieces ih => rw [spell, spell, ih]
  | case3 glyphs pieces _ _ => rfl

theorem refill_texts (glyphs : List Glyph) (pieces : List (List Char)) :
    texts (refill glyphs pieces) = texts glyphs := by
  fun_induction refill glyphs pieces with
  | case1 c rest pieces ih => rw [texts, texts, ih]
  | case2 old rest piece pieces ih => rw [texts, texts, ih]
  | case3 glyphs pieces _ _ => rfl

theorem refill_pieces (glyphs : List Glyph) (new : List (List Char))
    (count : (pieces glyphs).length = new.length) : pieces (refill glyphs new) = new := by
  fun_induction refill glyphs new with
  | case1 c rest new ih => exact ih count
  | case2 old rest piece new ih => rw [pieces, ih (Nat.succ.inj count)]
  | case3 glyphs new open' closed =>
      cases glyphs with
      | nil => exact (List.length_eq_zero_iff.mp count.symm).symm
      | cons glyph rest =>
          cases glyph with
          | plain c => exact absurd rfl (open' c rest)
          | code piece =>
              cases new with
              | nil => cases count
              | cons first new => exact absurd rfl (closed piece rest first new rfl)

theorem refill_clean (glyphs : List Glyph) (pieces : List (List Char)) (clean : Clean glyphs) :
    Clean (refill glyphs pieces) := by
  intro c member
  fun_induction refill glyphs pieces with
  | case1 d rest pieces ih =>
      obtain same | inside := List.mem_cons.mp member
      · exact clean c (same ▸ List.mem_cons_self)
      · exact ih (fun e found => clean e (List.mem_cons_of_mem _ found)) inside
  | case2 old rest piece pieces ih =>
      obtain same | inside := List.mem_cons.mp member
      · cases same
      · exact ih (fun e found => clean e (List.mem_cons_of_mem _ found)) inside
  | case3 glyphs pieces _ _ => exact clean c member

end Glyph

theorem trim_ends_length (texts : List (List Char)) : (trimEnds texts).length = texts.length := by
  have last (texts : List (List Char)) :
      (texts.modifyLast (Markdown.dropTrailing Text.isBlank)).length = texts.length := by
    cases texts using List.reverseRecOn with
    | nil => rfl
    | append_singleton texts text => simp [List.modifyLast_concat]
  rw [trimEnds, last, List.length_modifyHead]

theorem page_themed (document : Document) (made : document.Made Solid) :
    ∃ texts : List (List Char), texts.length = (blocksPieces document).length + 1 ∧
      ∀ theme, pageOf theme document =
        weave texts ((blocksPieces document).map (Piece.shown theme)) ++ ['\n'] := by
  obtain ⟨raw, cut, carried, squeezed, passed, -⟩ := page_spelled none document made
  have thinned := squeezed_thinned raw cut squeezed
  have count : (Glyph.pieces cut).length = (blocksPieces document).length := by
    rw [Glyph.thinned_pieces _ raw cut thinned, carried.own, blocks_code_length]
  refine ⟨trimEnds (Glyph.texts cut), ?_, fun theme => ?_⟩
  · rw [trim_ends_length, Glyph.texts_length, count]
  · have kept : (Writer.ofDocument theme document).kept.toList = blocksCode theme document :=
      (Writer.of_document_finish theme document).2
    have own : Glyph.pieces (Glyph.refill cut (blocksCode theme document)) = blocksCode theme document :=
      Glyph.refill_pieces _ _ (by rw [count, blocks_code_length])
    have clean := Glyph.refill_clean cut (blocksCode theme document)
      (Glyph.thinned_clean _ raw cut thinned carried.clean)
    have restored := Cleanup.restore_spell (Writer.ofDocument theme document).kept [] 0 _ clean
      (by rw [own, ← kept]; rfl)
    obtain ⟨_, carried'⟩ := blocks_carry theme ⟨none, [], false⟩ 0 document made
    rw [pageOf, Cleanup.run, finish_themeless theme none, passed,
      ← Glyph.refill_spell 0 cut (blocksCode theme document), restored, List.reverse_nil, List.nil_append,
      Glyph.print_weave, own, Glyph.refill_texts,
      weave_trimmed _ _ (by rw [Glyph.texts_length, count, blocks_code_length]) carried'.braced,
      blocks_pieces_shown]

/- What becomes of a source under two themes: the same fault, an empty page for a source of blanks, or two
   pages that are the same but for their code, each piece of which stands there under the theme of its page. -/
inductive Themed (source : String) (first second : Option String) :
    Except Fault String → Except Fault String → Prop where
  | refused (fault : Fault) : Themed source first second (.error fault) (.error fault)
  | blank (nothing : Text.allBlank source = true) : Themed source first second (.ok "") (.ok "")
  | page (texts : List (List Char))
      (count : texts.length = (blocksPieces (Markdown.parse source)).length + 1) :
      Themed source first second
        (.ok (String.ofList
          (weave texts ((blocksPieces (Markdown.parse source)).map (Piece.shown first)) ++ ['\n'])))
        (.ok (String.ofList
          (weave texts ((blocksPieces (Markdown.parse source)).map (Piece.shown second)) ++ ['\n'])))

theorem convert_blank (options : Options) (source : String)
    (within : source.utf8ByteSize ≤ options.limit) (free : '\x00' ∉ source.toList)
    (blank : Text.allBlank source = true) : convert options source = .ok "" := by
  have sized : Rendering.checkSize source options.limit = .ok () := if_neg (by omega)
  unfold convert
  rw [sized]
  simp [nulOffset?, free, blank, bind, Except.bind, pure, Except.pure]

theorem convert_themed (limit : Nat) (source : String) (first second : Option String) :
    Themed source first second (convert ⟨first, limit⟩ source) (convert ⟨second, limit⟩ source) := by
  by_cases above : limit < source.utf8ByteSize
  · rw [convert_large ⟨first, limit⟩ source above, convert_large ⟨second, limit⟩ source above]
    exact .refused _
  have within : source.utf8ByteSize ≤ limit := by omega
  by_cases nul : '\x00' ∈ source.toList
  · obtain ⟨front, back, found, fresh⟩ := List.eq_append_cons_of_mem nul
    rw [convert_nul ⟨first, limit⟩ source within front back found fresh,
      convert_nul ⟨second, limit⟩ source within front back found fresh]
    exact .refused _
  by_cases blank : Text.allBlank source = true
  · rw [convert_blank ⟨first, limit⟩ source within nul blank,
      convert_blank ⟨second, limit⟩ source within nul blank]
    exact .blank blank
  have sized : Rendering.checkSize source limit = .ok () := if_neg above
  have something : Text.allBlank source = false := Bool.eq_false_iff.mpr blank
  obtain ⟨texts, count, paged⟩ := page_themed _ (Markdown.parse_solid source nul)
  rw [convert_page ⟨first, limit⟩ source sized nul something,
    convert_page ⟨second, limit⟩ source sized nul something, paged, paged]
  exact .page texts count

theorem themed_codeless (source : String) (first second : Option String)
    (outcome other : Except Fault String) (free : Codeless (Markdown.parse source).events)
    (themed : Themed source first second outcome other) : outcome = other := by
  cases themed with
  | refused fault => rfl
  | blank nothing => rfl
  | page texts count =>
      rw [List.map_congr_left fun piece member =>
        span_shown first second piece (blocks_pieces_spans _ free piece member)]

/- A theme stands in the headers of code macros, as their last parameter, and changes nothing else: not
   whether the source is refused, not the text between the code, and nothing at all where there is no block
   of code. -/
structure ThemeInHeaders (limit : Nat) (source : String) (first second : Option String) : Prop where
  outcome : Themed source first second (convert ⟨first, limit⟩ source) (convert ⟨second, limit⟩ source)
  code : ∀ theme, (Writer.ofDocument theme (Markdown.parse source)).kept.toList =
    (blocksPieces (Markdown.parse source)).map (Piece.shown theme)
  header : ∀ language theme text, codeMacro language theme text =
    "\x7bcode".toList ++ macroHeader language none ++ themeParameter language theme ++
      '\x7d' :: ('\n' :: withoutLastFeed text ++ '\n' :: macroEnd)
  codeless : Codeless (Markdown.parse source).events →
    convert ⟨first, limit⟩ source = convert ⟨second, limit⟩ source

theorem theme_stays_in_headers (limit : Nat) (source : String) (first second : Option String) :
    ThemeInHeaders limit source first second where
  outcome := convert_themed limit source first second
  code theme := by rw [(Writer.of_document_finish theme _).2, blocks_pieces_shown]
  header := code_macro_themed
  codeless free := themed_codeless source first second _ _ free (convert_themed limit source first second)

end MarkdownServer.Wiki
