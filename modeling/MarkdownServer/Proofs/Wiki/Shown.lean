import MarkdownServer.Proofs.Wiki.Glyphs
import MarkdownServer.Proofs.Wiki.Markup
/- What the elements of a document show is found again in their raw markup, in the same order. Links
   may leave their text out, but only where it is empty or what they lead to. -/
set_option autoImplicit false

namespace MarkdownServer.Wiki

open Markdown (Block Document Event HtmlLine Inline MadeAll Only Solid)

def payload : Event → List Char
  | .text content => content.toList
  | .code content => content.toList
  | .html content => content.toList
  | .inlineHtml content => content.toList
  | _ => []

@[simp]
theorem payload_within (tag : Markdown.Tag) (events : List Event) :
    (Event.within tag events).flatMap payload = events.flatMap payload := by
  simp [Event.within, payload]

theorem escaped_sublist (escape : Char → List Char) (text : List Char)
    (kept : ∀ c, [c].Sublist (escape c)) : text.Sublist (text.flatMap escape) := by
  induction text with
  | nil => exact List.Sublist.refl _
  | cons c text ih => exact (kept c).append ih

theorem escape_text_cons (c : Char) (text : List Char) :
    escapeText (c :: text) = escapeTextChar c ++ escapeText text :=
  List.flatMap_cons

theorem escape_text_append (text more : List Char) :
    escapeText (text ++ more) = escapeText text ++ escapeText more := by
  simp [escapeText]

theorem escape_text_sublist (text : List Char) : text.Sublist (escapeText text) := by
  refine escaped_sublist escapeTextChar text fun c => ?_
  unfold escapeTextChar
  split
  · exact List.sublist_append_right ['\\'] [c]
  · exact List.Sublist.refl _

theorem escape_text_mem (text : List Char) (c : Char) (plain : c ≠ '\\' ∧ c ≠ '\x7b' ∧ c ≠ '\x7d') :
    c ∈ escapeText text ↔ c ∈ text := by
  have own (d : Char) : c ∈ escapeTextChar d ↔ c = d := by
    unfold escapeTextChar
    split
    · simp [plain.1]
    · exact List.mem_singleton
  simp [escapeText, own]

theorem escape_code_sublist (code : List Char) : code.Sublist (escapeCode code) := by
  refine escaped_sublist escapeCodeChar code fun c => ?_
  unfold escapeCodeChar
  split
  · exact List.sublist_append_right ['\\'] [c]
  · exact List.Sublist.refl _

theorem escaped_only (P : Char → Prop) (escape : Char → List Char) (text : List Char)
    (kept : ∀ c, P c → Only P (escape c)) (only : Only P text) : Only P (text.flatMap escape) := by
  intro c member
  obtain ⟨d, inside, escaped⟩ := List.mem_flatMap.mp member
  exact kept d (only d inside) c escaped

theorem escape_text_solid (text : List Char) (solid : Only Solid text) : Only Solid (escapeText text) := by
  refine escaped_only Solid escapeTextChar text (fun c own => ?_) solid
  unfold escapeTextChar
  split
  · exact (Markdown.only_cons _ _).mpr ⟨by decide, by simpa using own⟩
  · simpa using own

theorem escape_code_solid (code : List Char) (solid : Only Solid code) : Only Solid (escapeCode code) := by
  refine escaped_only Solid escapeCodeChar code (fun c own => ?_) solid
  unfold escapeCodeChar
  split
  · exact (Markdown.only_cons _ _).mpr ⟨by decide, by simpa using own⟩
  · simpa using own

theorem code_span_sublist (code : List Char) : code.Sublist (codeSpan code) :=
  ((escape_code_sublist code).trans (List.sublist_append_left _ _)).trans
    (List.sublist_append_right ['{', '{'] _)

theorem code_span_braced (code : List Char) : Braced (codeSpan code) := by
  refine ⟨rfl, ?_⟩
  rw [codeSpan, List.getLast?_append]
  rfl

theorem code_macro_braced (language theme : Option String) (text : List Char) :
    Braced (codeMacro language theme text) := by
  have first : "\x7bcode".toList.head? = some '\x7b' := by decide
  have last : "\n\x7bcode\x7d".toList.getLast? = some '\x7d' := by decide
  unfold codeMacro
  refine ⟨?_, ?_⟩
  · rw [List.append_assoc, List.append_assoc, List.append_assoc, List.head?_append, first]
    rfl
  · rw [List.getLast?_append, last]
    rfl

theorem code_macro_visible (language theme : Option String) (text : List Char) :
    (text.filter isVisible).Sublist ((codeMacro language theme text).filter isVisible) := by
  have visible : text.filter isVisible =
      (if text.getLast? = some '\n' then text.dropLast else text).filter isVisible := by
    split
    · rename_i last
      obtain ⟨front, rfl⟩ := List.getLast?_eq_some_iff.mp last
      rw [List.dropLast_concat, List.filter_append]
      simp
    · rfl
  rw [visible]
  refine List.Sublist.filter _ ?_
  unfold codeMacro
  exact (List.sublist_append_right _ _).trans (List.sublist_append_left _ _)

theorem style_mark_solid (style : Markdown.Style) : Solid (Writer.styleMark style) := by
  cases style <;> decide

theorem carries_bare (n : Nat) (text : List Char) (pieces : List (List Char)) (shown : List Char)
    (solid : Only Solid text) (carried : Carries n [] pieces shown) : Carries n text pieces shown := by
  obtain ⟨rfl, hidden⟩ := carries_empty n pieces shown carried
  exact carries_plain n text shown solid (hidden ▸ List.nil_sublist _)

theorem link_carries (n : Nat) (url text : List Char) (pieces : List (List Char)) (shown : List Char)
    (solid : Only Solid url) (carried : Carries n text pieces shown) :
    Carries n ((Goal.link false url).render text) pieces shown := by
  have closing : Only Solid ('|' :: url ++ [']']) := by
    simp [solid]
    decide
  have whole : Only Solid ('[' :: url ++ [']']) := by
    simp [solid]
    decide
  unfold Goal.render
  dsimp only
  split
  · rename_i bare
    obtain empty | same := bare
    · rw [List.isEmpty_iff.mp empty] at carried
      exact carries_bare n _ pieces shown whole carried
    · rw [← same]
      exact carries_enclosed n ['['] text [']'] pieces shown (by decide) (by decide) carried
  · simpa using carries_enclosed n ['['] text _ pieces shown (by decide) closing carried

theorem image_carries (n : Nat) (url text : List Char) (pieces : List (List Char)) (shown : List Char)
    (solid : Only Solid url) (carried : Carries n text pieces shown) :
    Carries n ((Goal.image url).render text) pieces shown := by
  have opening : Only Solid ('!' :: url ++ "|alt=".toList) := by
    simp [solid]
    decide
  have whole : Only Solid ('!' :: url ++ ['!']) := by
    simp [solid]
    decide
  unfold Goal.render
  dsimp only
  split
  · rename_i empty
    rw [List.isEmpty_iff.mp empty] at carried
    exact carries_bare n _ pieces shown whole carried
  · exact carries_enclosed n _ text ['!'] pieces shown opening (by decide) carried

theorem address_carries (n : Nat) (target : Markdown.Target) (solid : Only Solid target.url.toList) :
    let link := Inline.link true target [.text target.url]
    Carries n (inlineMarkup n link) (inlineCode link) ((Event.ofInline link).flatMap payload) := by
  intro link
  have own := carries_enclosed n "[mailto:".toList _ [']'] [] _ (by decide) (by decide)
    (carries_own n target.url.toList solid)
  have shown : (Event.ofInline link).flatMap payload = target.url.toList := by
    simp [link, Event.ofInline, Event.ofInlines, payload]
  rw [shown]
  exact own

mutual
theorem inline_carries (n : Nat) (element : Inline) (made : element.Made Solid) :
    Carries n (inlineMarkup n element) (inlineCode element)
      ((Event.ofInline element).flatMap payload) := by
  cases element with
  | text content =>
      cases made with
      | text _ only =>
          refine carries_plain n _ _ (escape_text_solid _ only) ?_
          simpa [Event.ofInline, payload, inlineMarkup] using
            (escape_text_sublist content.toList).filter isVisible
  | code content =>
      refine carries_code n _ _ (code_span_braced content.toList) ?_
      simpa [Event.ofInline, payload] using (code_span_sublist content.toList).filter isVisible
  | html content =>
      cases made with
      | html _ only => simpa [Event.ofInline, payload, inlineMarkup, inlineCode] using carries_own n _ only
  | softBreak => exact carries_mark n ['\n'] (by decide)
  | hardBreak => exact carries_mark n ['\n'] (by decide)
  | task done =>
      have solid : Only Solid (if done then "(/) " else "(x) ").toList := by cases done <;> decide
      exact carries_mark n _ solid
  | styled style children =>
      cases made with
      | styled _ _ inside =>
          have mark : Only Solid [Writer.styleMark style] := by simpa using style_mark_solid style
          have inner := carries_enclosed n _ _ _ _ _ mark mark (inlines_carries n children inside)
          simpa [Event.ofInline, inlineMarkup, inlineCode] using inner
  | link email target children =>
      cases made with
      | link _ _ _ url address inside _ =>
          cases email with
          | true =>
              rw [address rfl]
              exact address_carries n target url
          | false =>
              have inner := link_carries n _ _ _ _ url (inlines_carries n children inside)
              simpa [Event.ofInline, inlineMarkup, inlineCode] using inner
  | image target children =>
      cases made with
      | image _ _ url inside _ =>
          have inner := image_carries n _ _ _ _ url (inlines_carries n children inside)
          simpa [Event.ofInline, inlineMarkup, inlineCode] using inner

theorem inlines_carries (n : Nat) (elements : List Inline) (made : MadeAll Solid elements) :
    Carries n (inlinesMarkup n elements) (inlinesCode elements)
      ((Event.ofInlines elements).flatMap payload) := by
  cases elements with
  | nil => exact carries_mark n [] Markdown.only_nil
  | cons element elements =>
      obtain ⟨first, rest⟩ := (Markdown.made_all_cons _ _).mp made
      have written := carries_append n _ _ _ _ _ _ (inline_carries n element first)
        (inlines_carries _ elements rest)
      simpa [Event.ofInlines, inlinesMarkup, inlinesCode] using written
end

theorem between_solid (inHead : Bool) : Only Solid (between inHead) := by
  cases inHead <;> decide

theorem cells_carry (inHead first : Bool) (n : Nat) (cells : List (List Inline))
    (made : ∀ cell ∈ cells, MadeAll Solid cell) :
    Carries n (cellsMarkup inHead first n cells) (cellsCode cells)
      ((Event.ofCells cells).flatMap payload) := by
  induction cells generalizing first n with
  | nil => exact carries_mark n [] Markdown.only_nil
  | cons cell cells ih =>
      obtain ⟨own, others⟩ := List.forall_mem_cons.mp made
      have bar : Only Solid (if first then [] else between inHead) := by
        cases first
        · exact between_solid inHead
        · exact Markdown.only_nil
      have opened := carries_opened n _ _ _ _ bar (inlines_carries n cell own)
      have written := carries_append n _ _ _ _ _ _ opened (ih false _ others)
      simpa [Event.ofCells, cellsMarkup, cellsCode] using written

theorem rows_carry (n : Nat) (rows : List (List (List Inline)))
    (made : ∀ row ∈ rows, ∀ cell ∈ row, MadeAll Solid cell) :
    Carries n (rowsMarkup n rows) (rows.flatMap cellsCode)
      ((rows.flatMap fun row => Event.within .tableRow (Event.ofCells row)).flatMap payload) := by
  induction rows generalizing n with
  | nil => exact carries_mark n [] Markdown.only_nil
  | cons row rows ih =>
      obtain ⟨own, others⟩ := List.forall_mem_cons.mp made
      have framed := carries_enclosed n "| ".toList _ " |\n".toList _ _ (by decide) (by decide)
        (cells_carry false true n row own)
      have written := carries_append n _ _ _ _ _ _ framed (ih _ others)
      simpa [rowsMarkup] using written

theorem html_payload (lines : List HtmlLine) :
    (lines.flatMap Event.ofHtmlLine).flatMap payload = htmlMarkup lines := by
  induction lines with
  | nil => rfl
  | cons line lines ih =>
      have own : (Event.ofHtmlLine line).flatMap payload =
          List.replicate line.padding ' ' ++ line.content.toList := by
        by_cases flush : line.padding = 0
        · simp [Event.ofHtmlLine, payload, flush]
        · simp [Event.ofHtmlLine, payload, flush]
      rw [List.flatMap_cons, List.flatMap_append, own, ih]
      rfl

theorem html_only (P : Char → Prop) (space : P ' ') (lines : List HtmlLine)
    (only : ∀ line ∈ lines, Only P line.content.toList) : Only P (htmlMarkup lines) := by
  intro c member
  obtain ⟨line, inside, found⟩ := List.mem_flatMap.mp member
  obtain padding | content := List.mem_append.mp found
  · rw [List.eq_of_mem_replicate padding]
    exact space
  · exact only line inside c content

theorem line_end_solid (place : Place) : Only Solid place.lineEnd := by
  unfold Place.lineEnd
  split
  · exact Markdown.only_nil
  · split
    · exact Markdown.only_nil
    · decide

theorem number_solid (number : Nat) : Only Solid (toString number).toList := by
  rw [Nat.toString_eq_repr, Nat.toList_repr]
  intro c member same
  have digit := Nat.isDigit_of_mem_toDigits (by decide) (by decide) member
  rw [same] at digit
  cases digit

theorem marker_solid (place : Place) : Only Solid place.marker := by
  unfold Place.marker
  refine (Markdown.only_append _ _).mpr ⟨?_, by decide⟩
  split
  · decide
  · intro c member
    obtain ⟨kind, _, rfl⟩ := List.mem_map.mp member
    cases kind <;> decide

mutual
theorem block_carries (theme : Option String) (place : Place) (n : Nat) (block : Block (List Inline))
    (made : block.Made Solid (MadeAll Solid)) :
    Carries n (blockMarkup theme place n block) (blockCode theme block)
      ((Event.ofBlock block).flatMap payload) := by
  cases block with
  | paragraph content =>
      cases made with
      | paragraph _ inside =>
          have closing : Only Solid (if place.inItem then [] else "\n\n".toList) := by
            cases place.inItem <;> decide
          have written := carries_closed n _ _ _ _ closing (inlines_carries n content inside)
          simpa [Event.ofBlock, blockMarkup, blockCode] using written
  | tight content =>
      cases made with
      | tight _ inside => exact inlines_carries n content inside
  | heading level content =>
      cases made with
      | heading _ _ inside =>
          have opening : Only Solid ("h" ++ toString level ++ ". ").toList := by
            rw [String.toList_append, String.toList_append]
            exact (Markdown.only_append _ _).mpr
              ⟨(Markdown.only_append _ _).mpr ⟨by decide, number_solid level⟩, by decide⟩
          have written := carries_enclosed n _ _ "\n\n".toList _ _ opening (by decide)
            (inlines_carries n content inside)
          simpa [Event.ofBlock, blockMarkup, blockCode] using written
  | quote children =>
      cases made with
      | quote _ inside =>
          have inner := carries_opened n "\x7bquote\x7d\n".toList _ _ _ (by decide)
            (blocks_carry theme ⟨some '\n', place.lists, false⟩ n children inside)
          have written := carries_closed n _ "\n\x7bquote\x7d\n\n".toList _ _ (by decide)
            (carries_trimmed n _ _ _ inner)
          simpa [Event.ofBlock, blockMarkup, blockCode] using written
  | list number items =>
      cases made with
      | list _ _ inside =>
          have opening : Only Solid (if place.lists.isEmpty then [] else place.lineEnd) := by
            cases place.lists.isEmpty
            · exact line_end_solid place
            · exact Markdown.only_nil
          have closing : Only Solid (if place.lists.isEmpty then ['\n'] else []) := by
            cases place.lists.isEmpty <;> decide
          have written := carries_enclosed n _ _ _ _ _ opening closing
            (items_carry theme { place.behind (if place.lists.isEmpty then [] else place.lineEnd) with
              lists := (if number.isSome then .ordered else .bullet) :: place.lists } n items inside)
          simpa [Event.ofBlock, blockMarkup, blockCode] using written
  | code info content =>
      have piece := carries_code n _ _ (code_macro_braced (info.map Text.trim) theme content.toList)
        (code_macro_visible _ theme content.toList)
      have written := carries_closed n _ "\n\n".toList _ _ (by decide) piece
      simpa [Event.ofBlock, payload, blockMarkup, blockCode] using written
  | html lines =>
      cases made with
      | html _ only =>
          have written := carries_closed n _ _ _ _
            (line_end_solid (place.behind (htmlMarkup lines)))
            (carries_own n (htmlMarkup lines) (html_only Solid (by decide) lines only))
          simpa [Event.ofBlock, blockMarkup, blockCode, html_payload] using written
  | rule => exact carries_mark n "----\n\n".toList (by decide)
  | table columns head rows =>
      cases made with
      | table _ _ _ first rest =>
          have top := carries_enclosed n "|| ".toList _ " ||\n".toList _ _ (by decide) (by decide)
            (cells_carry true true n head first)
          have whole := carries_append n _ _ _ _ _ _ top (rows_carry _ rows rest)
          have written := carries_closed n _ ['\n'] _ _ (by decide) whole
          simpa [Event.ofBlock, blockMarkup, blockCode] using written

theorem blocks_carry (theme : Option String) (place : Place) (n : Nat)
    (blocks : List (Block (List Inline))) (made : ∀ block ∈ blocks, block.Made Solid (MadeAll Solid)) :
    Carries n (blocksMarkup theme place n blocks) (blocksCode theme blocks)
      ((Event.ofBlocks blocks).flatMap payload) := by
  cases blocks with
  | nil => exact carries_mark n [] Markdown.only_nil
  | cons block blocks =>
      obtain ⟨first, rest⟩ := List.forall_mem_cons.mp made
      have written := carries_append n _ _ _ _ _ _ (block_carries theme place n block first)
        (blocks_carry theme (place.behind (blockMarkup theme place n block)) _ blocks rest)
      simpa [Event.ofBlocks, blocksMarkup, blocksCode] using written

theorem items_carry (theme : Option String) (place : Place) (n : Nat)
    (items : List (List (Block (List Inline))))
    (made : ∀ item ∈ items, ∀ block ∈ item, block.Made Solid (MadeAll Solid)) :
    Carries n (itemsMarkup theme place n items) (itemsCode theme items)
      ((Event.ofItems items).flatMap payload) := by
  cases items with
  | nil => exact carries_mark n [] Markdown.only_nil
  | cons item items =>
      obtain ⟨first, rest⟩ := List.forall_mem_cons.mp made
      let text := place.marker ++
        blocksMarkup theme { place.behind place.marker with inItem := true } n item
      have opened : Carries n text (blocksCode theme item) ((Event.ofBlocks item).flatMap payload) :=
        carries_opened n _ _ _ _ (marker_solid place) (blocks_carry theme _ n item first)
      have whole := carries_closed n text _ _ _ (line_end_solid (place.behind text)) opened
      have written := carries_append n _ _ _ _ _ _ whole
        (items_carry theme (place.behind (text ++ (place.behind text).lineEnd)) _ items rest)
      simpa [Event.ofItems, itemsMarkup, itemsCode, text] using written
end

section
variable {P : Char → Prop}

mutual
theorem inline_shown (element : Inline) (made : element.Made P) :
    Only P ((Event.ofInline element).flatMap payload) := by
  cases made with
  | text content only => simpa [Event.ofInline, payload] using only
  | code content only => simpa [Event.ofInline, payload] using only
  | html content only => simpa [Event.ofInline, payload] using only
  | softBreak => exact Markdown.only_nil
  | hardBreak => exact Markdown.only_nil
  | task done => exact Markdown.only_nil
  | styled style children inside => simpa [Event.ofInline] using inlines_shown children inside
  | link email target children url address inside _ =>
      simpa [Event.ofInline] using inlines_shown children inside
  | image target children url inside _ => simpa [Event.ofInline] using inlines_shown children inside

theorem inlines_shown (elements : List Inline) (made : MadeAll P elements) :
    Only P ((Event.ofInlines elements).flatMap payload) := by
  cases elements with
  | nil => exact Markdown.only_nil
  | cons element elements =>
      obtain ⟨first, rest⟩ := (Markdown.made_all_cons _ _).mp made
      simpa [Event.ofInlines] using ⟨inline_shown element first, inlines_shown elements rest⟩
end

theorem cells_shown (cells : List (List Inline)) (made : ∀ cell ∈ cells, MadeAll P cell) :
    Only P ((Event.ofCells cells).flatMap payload) := by
  induction cells with
  | nil => exact Markdown.only_nil
  | cons cell cells ih =>
      obtain ⟨first, rest⟩ := List.forall_mem_cons.mp made
      simpa [Event.ofCells] using ⟨inlines_shown cell first, ih rest⟩

theorem rows_shown (rows : List (List (List Inline))) (made : ∀ row ∈ rows, ∀ cell ∈ row, MadeAll P cell) :
    Only P ((rows.flatMap fun row => Event.within .tableRow (Event.ofCells row)).flatMap payload) := by
  induction rows with
  | nil => exact Markdown.only_nil
  | cons row rows ih =>
      obtain ⟨first, rest⟩ := List.forall_mem_cons.mp made
      simpa using ⟨cells_shown row first, ih rest⟩

mutual
theorem block_shown (space : P ' ') (block : Block (List Inline)) (made : block.Made P (MadeAll P)) :
    Only P ((Event.ofBlock block).flatMap payload) := by
  cases made with
  | paragraph content inside => simpa [Event.ofBlock] using inlines_shown content inside
  | tight content inside => exact inlines_shown content inside
  | heading level content inside => simpa [Event.ofBlock] using inlines_shown content inside
  | quote children inside => simpa [Event.ofBlock] using blocks_shown space children inside
  | list start items inside => simpa [Event.ofBlock] using items_shown space items inside
  | code info content only => simpa [Event.ofBlock, payload] using only
  | html lines only => simpa [Event.ofBlock, html_payload] using html_only P space lines only
  | rule => exact Markdown.only_nil
  | table columns head rows first rest =>
      simpa [Event.ofBlock] using ⟨cells_shown head first, rows_shown rows rest⟩

theorem blocks_shown (space : P ' ') (blocks : List (Block (List Inline)))
    (made : ∀ block ∈ blocks, block.Made P (MadeAll P)) :
    Only P ((Event.ofBlocks blocks).flatMap payload) := by
  cases blocks with
  | nil => exact Markdown.only_nil
  | cons block blocks =>
      obtain ⟨first, rest⟩ := List.forall_mem_cons.mp made
      simpa [Event.ofBlocks] using ⟨block_shown space block first, blocks_shown space blocks rest⟩

theorem items_shown (space : P ' ') (items : List (List (Block (List Inline))))
    (made : ∀ item ∈ items, ∀ block ∈ item, block.Made P (MadeAll P)) :
    Only P ((Event.ofItems items).flatMap payload) := by
  cases items with
  | nil => exact Markdown.only_nil
  | cons item items =>
      obtain ⟨first, rest⟩ := List.forall_mem_cons.mp made
      simpa [Event.ofItems] using ⟨blocks_shown space item first, items_shown space items rest⟩
end

end

end MarkdownServer.Wiki
