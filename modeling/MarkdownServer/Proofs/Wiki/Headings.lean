import MarkdownServer.Proofs.Wiki.Siblings
/- Headings. What a heading holds stands in one piece behind its mark, and on one line unless the content
   itself writes a line end: a break, or a line end in a text, in raw HTML or in an address. -/
set_option autoImplicit false

namespace MarkdownServer.Wiki

open Cleanup (WholeLines)
open Markdown (Block Document Event Inline MadeAll Tag)

def feeds : Event → Bool
  | .softBreak => true
  | .hardBreak => true
  | .text content => content.toList.contains '\n'
  | .inlineHtml content => content.toList.contains '\n'
  | .start (.link _ target) => target.url.toList.contains '\n'
  | .start (.image target) => target.url.toList.contains '\n'
  | _ => false

theorem within_feeds (tag : Tag) (events : List Event) :
    (Event.within tag events).any feeds = (feeds (.start tag) || events.any feeds) := by
  simp [Event.within, feeds]

theorem link_feeds (url text : List Char) :
    '\n' ∈ (Goal.link false url).render text ↔ '\n' ∈ url ∨ '\n' ∈ text := by
  dsimp only [Goal.render]
  split
  · rename_i plain
    obtain empty | same := plain
    · simp [List.isEmpty_iff.mp empty]
    · simp [same]
  · simp [or_comm]

theorem mail_feeds (url text : List Char) : '\n' ∈ (Goal.link true url).render text ↔ '\n' ∈ url := by
  dsimp only [Goal.render]
  simp

theorem image_feeds (url text : List Char) :
    '\n' ∈ (Goal.image url).render text ↔ '\n' ∈ url ∨ '\n' ∈ text := by
  dsimp only [Goal.render]
  split
  · rename_i empty
    simp [List.isEmpty_iff.mp empty]
  · simp

section
variable {P : Char → Prop}

mutual
theorem inline_feeds (n : Nat) (element : Inline) (made : element.Made P) :
    '\n' ∈ inlineMarkup n element ↔ (Event.ofInline element).any feeds = true := by
  cases made with
  | text content only =>
      rw [inlineMarkup, escape_text_mem _ '\n' (by decide)]
      simp [Event.ofInline, feeds]
  | code content only =>
      have outside : '\n' ∉ Writer.placeholder n := fun member =>
        Glyph.placeholder_kept n '\n' member (by decide)
      simp [inlineMarkup, Event.ofInline, feeds, outside]
  | html content only => simp [inlineMarkup, Event.ofInline, feeds]
  | softBreak => simp [inlineMarkup, Event.ofInline, feeds]
  | hardBreak => simp [inlineMarkup, Event.ofInline, feeds]
  | task done => cases done <;> simp [inlineMarkup, Event.ofInline, feeds]
  | styled style children inside =>
      have mark : '\n' ≠ Writer.styleMark style := by cases style <;> decide
      have inner := inlines_feed n children inside
      have own : feeds (.start (.styled style)) = false := rfl
      rw [Event.ofInline, within_feeds, own, Bool.false_or, ← inner]
      simp [inlineMarkup, mark]
  | link email target children url address inside _ =>
      cases email with
      | true =>
          -- The text of the link goes, and it is the address.
          rw [inlineMarkup, mail_feeds, Event.ofInline, within_feeds, address rfl]
          simp [Event.ofInlines, Event.ofInline, feeds]
      | false =>
          rw [inlineMarkup, link_feeds, inlines_feed n children inside, Event.ofInline, within_feeds]
          simp [feeds]
  | image target children url inside _ =>
      rw [inlineMarkup, image_feeds, inlines_feed n children inside, Event.ofInline, within_feeds]
      simp [feeds]

theorem inlines_feed (n : Nat) (elements : List Inline) (made : MadeAll P elements) :
    '\n' ∈ inlinesMarkup n elements ↔ (Event.ofInlines elements).any feeds = true := by
  cases elements with
  | nil => simp [inlinesMarkup, Event.ofInlines]
  | cons element elements =>
      obtain ⟨own, others⟩ := List.forall_mem_cons.mp made
      have first := inline_feeds n element own
      have rest := inlines_feed (n + (inlineCode element).length) elements others
      rw [inlinesMarkup, List.mem_append, first, rest, Event.ofInlines, List.any_append, Bool.or_eq_true]
end

theorem parse_anything (source : String) : (Markdown.parse source).Made fun _ => True :=
  Markdown.parse_made ⟨trivial, trivial, trivial, fun _ _ _ _ _ _ _ => trivial⟩ source fun _ _ => trivial

theorem made_inherited : Inherited fun block => block.Made P (MadeAll P) where
  quote children made := by
    cases made with
    | quote _ inside => exact inside
  list start items made := by
    cases made with
    | list _ _ inside => exact inside

end

def isQuote : Block (List Inline) → Bool
  | .quote _ => true
  | _ => false

def quoteEnd : List Char := "\n\x7bquote\x7d\n\n".toList

def BlockStart.through (start : BlockStart) : List Char := start.before ++ start.markup

theorem through_behind (start : BlockStart) (front : List Char) :
    (start.behind front).through = front ++ start.through :=
  List.append_assoc front start.before start.markup

-- The text goes as far as the part does, but for line ends, and the end of a quote stands there for them.
def QuoteTaken (part text : List Char) : Prop :=
  ∃ kept count, part = kept ++ List.replicate count '\n' ∧ text = kept ++ quoteEnd

def Ended (starts : List BlockStart) (part text : List Char) : Prop :=
  part <+: text ∨ ∃ quote ∈ starts, isQuote quote.block = true ∧ QuoteTaken part quote.through

theorem drop_trailing_split (text : List Char) :
    ∃ count, text = Markdown.dropTrailing (· = '\n') text ++ List.replicate count '\n' := by
  induction text using List.reverseRecOn with
  | nil => exact ⟨0, rfl⟩
  | append_singleton text c ih =>
      rw [drop_trailing_append]
      split
      · rename_i feed
        obtain ⟨count, split⟩ := ih
        refine ⟨count + 1, ?_⟩
        rw [List.replicate_succ', ← List.append_assoc, ← split, of_decide_eq_true feed]
      · exact ⟨0, (List.append_nil _).symm⟩

theorem quote_takes (part more : List Char) :
    part <+: Markdown.dropTrailing (· = '\n') (part ++ more) ++ quoteEnd ∨
      QuoteTaken part (Markdown.dropTrailing (· = '\n') (part ++ more) ++ quoteEnd) := by
  obtain ⟨count, split⟩ := drop_trailing_split (part ++ more)
  obtain ⟨front, trimmed, -⟩ | ⟨gone, whole, rest⟩ := List.append_eq_append_iff.mp split
  · left
    rw [trimmed, List.append_assoc]
    exact List.prefix_append _ _
  · obtain ⟨-, feeds, -⟩ := List.append_eq_replicate_iff.mp rest.symm
    exact .inr ⟨_, gone.length, feeds ▸ whole, rfl⟩

theorem quote_taken_behind (front part text : List Char) (taken : QuoteTaken part text) :
    QuoteTaken (front ++ part) (front ++ text) := by
  obtain ⟨kept, count, rfl, rfl⟩ := taken
  exact ⟨front ++ kept, count, (List.append_assoc _ _ _).symm, (List.append_assoc _ _ _).symm⟩

section
variable (starts : List BlockStart) (part text : List Char)

theorem ended_behind (front : List Char) (ended : Ended starts part text) :
    Ended (starts.map (.behind front)) (front ++ part) (front ++ text) := by
  obtain stands | ⟨quote, member, own, taken⟩ := ended
  · exact .inl ((List.prefix_append_right_inj front).mpr stands)
  · refine .inr ⟨quote.behind front, List.mem_map_of_mem member, own, ?_⟩
    rw [through_behind]
    exact quote_taken_behind front part _ taken

theorem ended_append (more : List Char) (ended : Ended starts part text) : Ended starts part (text ++ more) :=
  ended.imp_left fun stands => stands.trans (List.prefix_append text more)

theorem ended_among (others : List BlockStart) (among : starts ⊆ others) (ended : Ended starts part text) :
    Ended others part text := by
  obtain stands | ⟨quote, member, rest⟩ := ended
  · exact .inl stands
  · exact .inr ⟨quote, among member, rest⟩

end

section
variable (theme : Option String)

mutual
-- A quote is not one of the blocks inside of it, so its own end is told apart.
theorem block_starts_ended (place : Place) (n : Nat) (block : Block (List Inline)) (start : BlockStart)
    (member : start ∈ blockStarts theme place n block) :
    Ended (blockStarts theme place n block) start.through (blockMarkup theme place n block) ∨
      isQuote block = true ∧ QuoteTaken start.through (blockMarkup theme place n block) := by
  cases block with
  | quote children =>
      obtain ⟨more, whole⟩ | inside := blocks_starts_ended _ n _ none children start member
      · rw [blockMarkup, ← whole]
        exact (quote_takes _ more).imp .inl fun taken => ⟨rfl, taken⟩
      · exact .inl (.inr inside)
  | list number items =>
      obtain ⟨inner, inside, rfl⟩ := List.mem_map.mp member
      have within := items_starts_ended _ n items inner inside
      rw [through_behind]
      exact .inl (ended_append _ _ _ _ (ended_behind _ _ _ _ within))
  | _ => cases member

theorem blocks_starts_ended (place : Place) (n : Nat) (front : List Char)
    (previous : Option (Block (List Inline) × List Char)) (blocks : List (Block (List Inline)))
    (start : BlockStart) (member : start ∈ blocksStarts theme place n front previous blocks) :
    Ended (blocksStarts theme place n front previous blocks) start.through
      (front ++ blocksMarkup theme place n blocks) := by
  cases blocks with
  | nil => cases member
  | cons block blocks =>
      rw [blocksStarts] at member ⊢
      rw [blocksMarkup, ← List.append_assoc]
      obtain here | later := List.mem_append.mp member
      · obtain rfl | below := List.mem_cons.mp here
        · exact .inl (List.prefix_append _ _)
        · obtain ⟨inner, inside, rfl⟩ := List.mem_map.mp below
          rw [through_behind]
          obtain within | ⟨own, taken⟩ := block_starts_ended place n block inner inside
          · refine ended_append _ _ _ _ (ended_among _ _ _ _ ?_ (ended_behind _ _ _ front within))
            exact List.Subset.trans (List.subset_cons_self _ _) (List.subset_append_left _ _)
          · exact .inr ⟨_, List.mem_append_left _ List.mem_cons_self, own, quote_taken_behind front _ _ taken⟩
      · exact ended_among _ _ _ _ (List.subset_append_right _ _)
          (blocks_starts_ended _ _ _ _ blocks start later)

theorem items_starts_ended (place : Place) (n : Nat) (items : List (List (Block (List Inline))))
    (start : BlockStart) (member : start ∈ itemsStarts theme place n items) :
    Ended (itemsStarts theme place n items) start.through (itemsMarkup theme place n items) := by
  cases items with
  | nil => cases member
  | cons item items =>
      rw [itemsStarts] at member ⊢
      rw [itemsMarkup]
      obtain here | later := List.mem_append.mp member
      · have within := blocks_starts_ended _ n _ none item start here
        exact ended_append _ _ _ _ (ended_append _ _ _ _
          (ended_among _ _ _ _ (List.subset_append_left _ _) within))
      · obtain ⟨inner, inside, rfl⟩ := List.mem_map.mp later
        have within := items_starts_ended _ _ items inner inside
        rw [through_behind]
        exact ended_among _ _ _ _ (List.subset_append_right _ _) (ended_behind _ _ _ _ within)
end

theorem document_starts_ended (document : Document) (start : BlockStart)
    (member : start ∈ documentStarts theme document) :
    Ended (documentStarts theme document) start.through (Writer.ofDocument theme document).finish := by
  rw [(Writer.of_document_finish theme document).1]
  exact blocks_starts_ended theme _ 0 [] none document start member

end

def LastInQuote (starts : List BlockStart) (text : List Char) : Prop :=
  ∃ quote ∈ starts, isQuote quote.block = true ∧ quote.through = text ++ quoteEnd

theorem blank_line_kept (starts : List BlockStart) (line text : List Char)
    (unended : line.getLast? ≠ some '\n') (lined : ∀ start ∈ starts, Lined start.through text)
    (ended : Ended starts (line ++ "\n\n".toList) text) :
    line ++ "\n\n".toList <+: text ∨
      LastInQuote starts line ∧ line ++ "\n\x7bquote\x7d\n".toList <+: text := by
  obtain stands | ⟨quote, member, own, kept, count, whole, taken⟩ := ended
  · exact .inl stands
  -- The line that ends the quote stands in the text with its line end.
  have stands : kept ++ "\n\x7bquote\x7d\n".toList <+: text := by
    have last : (kept ++ "\n\x7bquote\x7d".toList).getLast? ≠ some '\n' := by simp
    have line := lined quote member _ last
    rw [taken, List.append_assoc] at line
    exact line ((List.prefix_append_right_inj kept).mpr ⟨['\n'], rfl⟩)
  match count with
  | 0 =>
      left
      rw [whole, List.replicate_zero, List.append_nil]
      exact (List.prefix_append kept _).trans stands
  | 1 =>
      left
      rw [whole]
      exact ((List.prefix_append_right_inj kept).mpr ⟨"\x7bquote\x7d\n".toList, rfl⟩).trans stands
  | count + 2 =>
      rw [List.replicate_succ', List.replicate_succ', List.append_assoc, ← List.append_assoc kept] at whole
      obtain ⟨same, -⟩ := List.append_inj' whole rfl
      cases count with
      | zero =>
          rw [List.replicate_zero, List.append_nil] at same
          exact .inr ⟨⟨quote, member, own, same ▸ taken⟩, same ▸ stands⟩
      | succ count =>
          rw [same, List.replicate_succ', ← List.append_assoc] at unended
          exact absurd List.getLast?_concat unended

def headingMark (level : Nat) : List Char := ("h" ++ toString level ++ ". ").toList

theorem heading_mark_single (level : Nat) : '\n' ∉ headingMark level := by
  have digits : '\n' ∉ Nat.toDigits 10 level := fun member => by
    cases Nat.isDigit_of_mem_toDigits (by decide) (by decide) member
  simp [headingMark, digits]

def headingLine (n level : Nat) (content : List Inline) : List Char :=
  headingMark level ++ inlinesMarkup n content

/- A heading in the raw markup. Its content stands right behind the mark, on the same line unless there is
   a line end in it, and the mark starts a line but behind the markers or the text of an item. A blank line
   follows, or the end of a quote. -/
structure HeadingLine (raw : List Char) (starts : List BlockStart) (start : BlockStart) (n level : Nat)
    (content : List Inline) : Prop where
  markup : start.markup = headingLine n level content ++ "\n\n".toList
  stands : start.Stands raw
  single : '\n' ∉ headingLine n level content ↔ ∀ event ∈ Event.ofInlines content, feeds event = false
  ended : '\n' ∉ headingLine n level content →
    start.before ++ headingLine n level content ++ "\n\n".toList <+: raw ∨
      LastInQuote starts (start.before ++ headingLine n level content) ∧
        start.before ++ headingLine n level content ++ "\n\x7bquote\x7d\n".toList <+: raw
  outside : start.inItem = false → WholeLines start.before
  first : start.previous = none → WholeLines start.before ∨ start.chain ++ [' '] <:+ start.before
  behind : ∀ block text, start.previous = some (block, text) → start.joins block = false →
    WholeLines start.before

theorem heading_single {P : Char → Prop} (n level : Nat) (content : List Inline) (made : MadeAll P content) :
    '\n' ∉ headingLine n level content ↔ ∀ event ∈ Event.ofInlines content, feeds event = false := by
  have mark := heading_mark_single level
  rw [headingLine, List.mem_append, inlines_feed n content made, not_or]
  simp [mark]

theorem heading_unended (before : List Char) (n level : Nat) (content : List Inline)
    (single : '\n' ∉ headingLine n level content) :
    (before ++ headingLine n level content).getLast? ≠ some '\n' := by
  intro last
  have some : headingLine n level content ≠ [] := by simp [headingLine, headingMark]
  rw [List.getLast?_append_of_ne_nil _ some] at last
  exact single (List.mem_of_getLast? last)

theorem ruled_outside (start : BlockStart) (ruled : start.Ruled WholeLines) (outer : start.inItem = false) :
    WholeLines (start.before ++ start.opening) := by
  have inside (item : start.inItem = true) : False := by
    rw [outer] at item
    cases item
  cases fresh : start.previous with
  | none =>
      obtain line | ⟨item, -⟩ := ruled.first fresh
      · exact line
      · exact (inside item).elim
  | some previous =>
      obtain ⟨block, text⟩ := previous
      cases joins : start.joins block with
      | false => exact ruled.apart block text fresh joins
      | true => exact (inside (ruled.joined block text fresh joins).1).elim

theorem document_starts_ruled (theme : Option String) (source : String) (start : BlockStart)
    (member : start ∈ documentStarts theme (Markdown.parse source)) : start.Ruled WholeLines := by
  refine blocks_starts_ruled theme ⟨none, [], false⟩ 0 [] none _ start member WholeLines ?_
    (.first (.inl (.inl rfl))) nofun (fun _ => Markdown.parse_parted source) (Markdown.parse_nested source)
  intro text line
  rw [WholeLines, ← List.getLast?_eq_some_iff]
  simpa [Place.line, Place.AtLineStart, Place.behind] using line

theorem heading_lined (theme : Option String) (source : String) (start : BlockStart)
    (member : start ∈ documentStarts theme (Markdown.parse source)) (level : Nat) (content : List Inline)
    (heading : start.block = .heading level content) (made : MadeAll (fun _ => True) content) :
    ∃ n, HeadingLine (Writer.ofDocument theme (Markdown.parse source)).finish
      (documentStarts theme (Markdown.parse source)) start n level content := by
  obtain ⟨⟨place, n, markup⟩, stands, opening⟩ := document_starts_written theme opens_standing _ start member
  have ruled := document_starts_ruled theme source start member
  have ended := document_starts_ended theme _ start member
  have lined (other : BlockStart) (among : other ∈ documentStarts theme (Markdown.parse source)) :=
    (document_starts_written theme lined_standing _ other among).stands
  rw [heading] at markup opening
  have line (whole : WholeLines (start.before ++ start.opening)) : WholeLines start.before := by
    rwa [opening rfl, List.append_nil] at whole
  refine ⟨n, ?_⟩
  constructor
  case markup => exact markup
  case stands => exact stands
  case single => exact heading_single n level content made
  case ended =>
    intro single
    have through : start.through = start.before ++ headingLine n level content ++ "\n\n".toList := by
      rw [BlockStart.through, markup, List.append_assoc]
      rfl
    rw [through] at ended
    exact blank_line_kept _ _ _ (heading_unended start.before n level content single) lined ended
  case outside => exact fun outer => line (ruled_outside start ruled outer)
  case first => exact fun fresh => (ruled.first fresh).imp line And.right
  case behind => exact fun block text same free => line (ruled.apart block text same free)

structure HeadingsLined (theme : Option String) (document : Document) : Prop where
  all : (documentStarts theme document).map BlockStart.pair = blocksPairs none document
  lined : ∀ start ∈ documentStarts theme document, ∀ level content,
    start.block = .heading level content →
    ∃ n, HeadingLine (Writer.ofDocument theme document).finish (documentStarts theme document) start n level
      content
  written : ∀ (w : Writer) level content, w.Ready →
    Writer.Extends w ((Event.ofBlock (.heading level content)).foldl (Writer.step theme) w)
      (headingLine w.kept.size level content ++ "\n\n".toList) (inlinesCode content)

theorem document_headings_lined (theme : Option String) (source : String) :
    HeadingsLined theme (Markdown.parse source) := by
  constructor
  case all => exact blocks_starts_all theme _ 0 [] none _
  case lined =>
    intro start member level content heading
    have made := document_starts_inherit made_inherited theme _ (parse_anything source) start member
    rw [heading] at made
    cases made with
    | heading _ _ inside => exact heading_lined theme source start member level content heading inside
  case written =>
    intro w level content ready
    exact Writer.write_block theme w (.heading level content) ready

theorem broken_heading_leaves_line :
    convert {} "a\nb\n===" = .ok "h1. a\nb\n" ∧
    (Markdown.parse "a\nb\n===").events =
      [.start (.heading 1), .text "a", .softBreak, .text "b", .stop (.heading 1)] ∧
    (Writer.ofDocument none (Markdown.parse "a\nb\n===")).finish = "h1. a\nb\n\n".toList ∧
    (Writer.ofDocument none (Markdown.parse "# a&#10;b")).finish = "h1. a\nb\n\n".toList ∧
    (Writer.ofDocument none (Markdown.parse "> # a")).finish =
      "\x7bquote\x7d\nh1. a\n\x7bquote\x7d\n\n".toList ∧
    (Writer.ofDocument none (Markdown.parse "- # a")).finish = "* h1. a\n\n\n".toList := by
  refine ⟨?_, ?_, ?_, ?_, ?_, ?_⟩
  · decide +kernel
  · decide +kernel
  · decide +kernel
  · decide +kernel
  · decide +kernel
  · decide +kernel

end MarkdownServer.Wiki
