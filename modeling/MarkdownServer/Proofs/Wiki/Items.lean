import MarkdownServer.Proofs.Markdown.Nesting
import MarkdownServer.Proofs.Wiki.Shown
/- Where the items of a document start in its raw markup: at the start of a line, with the markers of
   the lists around them, outermost first, and a space. -/
set_option autoImplicit false

namespace MarkdownServer.Wiki

open Markdown (AllParted Block Document Inline MadeAll Only Solid)

structure ItemStart where
  before : List Char
  lists : List ListKind
  item : List (Block (List Inline))

namespace ItemStart

def behind (text : List Char) (start : ItemStart) : ItemStart :=
  { start with before := text ++ start.before }

def chain (start : ItemStart) : List Char :=
  start.lists.reverse.map ListKind.marker

def text? (start : ItemStart) : Option String :=
  match start.item with
  | .tight (.text content :: _) :: _ => some content
  | .paragraph (.text content :: _) :: _ => some content
  | _ => none

end ItemStart

mutual
def blockItems (theme : Option String) (place : Place) (n : Nat) :
    Block (List Inline) → List ItemStart
  | .quote children =>
      (blocksItems theme ⟨some '\n', place.lists, false⟩ n children).map
        (.behind "\x7bquote\x7d\n".toList)
  | .list number items =>
      let opening := if place.lists.isEmpty then [] else place.lineEnd
      let kind : ListKind := if number.isSome then .ordered else .bullet
      (itemsItems theme { place.behind opening with lists := kind :: place.lists } n items).map
        (.behind opening)
  | _ => []

def blocksItems (theme : Option String) (place : Place) (n : Nat) :
    List (Block (List Inline)) → List ItemStart
  | [] => []
  | block :: blocks =>
      let text := blockMarkup theme place n block
      blockItems theme place n block ++
        (blocksItems theme (place.behind text) (n + (blockCode theme block).length) blocks).map
          (.behind text)

def itemsItems (theme : Option String) (place : Place) (n : Nat) :
    List (List (Block (List Inline))) → List ItemStart
  | [] => []
  | item :: items =>
      let text := place.marker ++
        blocksMarkup theme { place.behind place.marker with inItem := true } n item
      let whole := text ++ (place.behind text).lineEnd
      ⟨[], place.lists, item⟩ ::
        (blocksItems theme { place.behind place.marker with inItem := true } n item).map
          (.behind place.marker) ++
        (itemsItems theme (place.behind whole) (n + (blocksCode theme item).length) items).map
          (.behind whole)
end

def documentItems (theme : Option String) (document : Document) : List ItemStart :=
  blocksItems theme ⟨none, [], false⟩ 0 document

namespace Place

def AtLineStart (place : Place) : Prop := place.last = none ∨ place.last = some '\n'

theorem line_end_reached (place : Place) : (place.behind place.lineEnd).AtLineStart := by
  unfold AtLineStart behind lineEnd
  split
  · rename_i fresh
    exact .inl fresh
  · rename_i c last
    split
    · rename_i feed
      exact .inr (by simpa [feed] using last)
    · exact .inr rfl

theorem behind_line_end (place : Place) (text : List Char) :
    (place.behind (text ++ (place.behind text).lineEnd)).AtLineStart := by
  rw [← Writer.behind_behind]
  exact line_end_reached _

theorem behind_feed (place : Place) (front text : List Char) (feed : text.getLast? = some '\n') :
    (place.behind (front ++ text)).AtLineStart := by
  simp [AtLineStart, behind, List.getLast?_append, feed]

theorem marker_append (place : Place) (text : List Char) (inside : place.lists ≠ []) :
    place.marker ++ text = place.lists.reverse.map ListKind.marker ++ ' ' :: text := by
  simp [marker, inside]

end Place

-- The text of a block that ends without a line end: that of a tight item, and of a paragraph right in an
-- item.
def unended? (inItem : Bool) : Block (List Inline) → Option (List Inline)
  | .tight content => some content
  | .paragraph content => if inItem then some content else none
  | _ => none

theorem parted_ended (block : Block (List Inline)) (parted : block.Parted) : unended? false block = none := by
  cases parted <;> rfl

theorem items_line_end (theme : Option String) (place : Place) (n : Nat)
    (items : List (List (Block (List Inline)))) (ready : place.AtLineStart) :
    (place.behind (itemsMarkup theme place n items)).AtLineStart := by
  induction items generalizing place n with
  | nil => exact ready
  | cons item items ih =>
      rw [itemsMarkup, ← Writer.behind_behind]
      exact ih _ _ (place.behind_line_end _)

theorem block_line_end (theme : Option String) (place : Place) (n : Nat) (block : Block (List Inline))
    (ended : unended? place.inItem block = none) :
    (place.behind (blockMarkup theme place n block)).AtLineStart := by
  cases block with
  | paragraph content =>
      have outside : place.inItem = false := by simpa [unended?] using ended
      rw [blockMarkup, outside]
      exact place.behind_feed _ "\n\n".toList rfl
  | tight content => cases ended
  | heading level content => exact place.behind_feed _ "\n\n".toList rfl
  | quote children => exact place.behind_feed _ "\n\x7bquote\x7d\n\n".toList rfl
  | list start items =>
      rw [blockMarkup]
      by_cases outermost : place.lists = []
      · rw [outermost]
        exact place.behind_feed _ ['\n'] rfl
      · have within : place.lists.isEmpty = false := List.isEmpty_eq_false_iff.mpr outermost
        simp only [within, Bool.false_eq_true, if_false, List.append_nil]
        rw [← Writer.behind_behind]
        exact items_line_end theme { place.behind place.lineEnd with
          lists := (if start.isSome then .ordered else .bullet) :: place.lists } n items
          place.line_end_reached
  | code info content => exact place.behind_feed _ "\n\n".toList rfl
  | html lines => exact place.behind_line_end (htmlMarkup lines)
  | rule => exact place.behind_feed "----".toList "\n\n".toList rfl
  | table columns head rows => exact place.behind_feed _ ['\n'] rfl

structure ItemStart.Leads (start : ItemStart) (place : Place) : Prop where
  line : (place.behind start.before).AtLineStart
  inside : start.lists ≠ []

theorem leads_behind (start : ItemStart) (place : Place) (text : List Char)
    (leads : start.Leads (place.behind text)) : (start.behind text).Leads place := by
  refine ⟨?_, leads.inside⟩
  rw [ItemStart.behind, ← Writer.behind_behind]
  exact leads.line

mutual
theorem block_items_lead (theme : Option String) (place : Place) (n : Nat) (block : Block (List Inline))
    (start : ItemStart) (member : start ∈ blockItems theme place n block)
    (ready : place.lists = [] → place.AtLineStart ∧ block.Parted) : start.Leads place := by
  cases block with
  | quote children =>
      rw [blockItems] at member
      obtain ⟨inner, inside, rfl⟩ := List.mem_map.mp member
      obtain ⟨line, lists⟩ := blocks_items_lead theme _ n children inner inside fun outside => by
        obtain ⟨-, parted⟩ := ready outside
        cases parted with
        | quote _ parted => exact ⟨.inr rfl, rfl, parted⟩
      exact leads_behind inner place _ ⟨line, lists⟩
  | list number items =>
      rw [blockItems] at member
      obtain ⟨inner, inside, rfl⟩ := List.mem_map.mp member
      have opened : (place.behind (if place.lists.isEmpty then [] else place.lineEnd)).AtLineStart := by
        by_cases outside : place.lists = []
        · rw [outside, List.isEmpty_nil, if_pos rfl]
          exact (ready outside).1
        · rw [List.isEmpty_eq_false_iff.mpr outside, if_neg (by decide)]
          exact place.line_end_reached
      obtain ⟨line, lists⟩ := items_items_lead theme _ n items inner inside (List.cons_ne_nil _ _) opened
      exact leads_behind inner place _ ⟨line, lists⟩
  | _ => cases member

theorem blocks_items_lead (theme : Option String) (place : Place) (n : Nat)
    (blocks : List (Block (List Inline))) (start : ItemStart)
    (member : start ∈ blocksItems theme place n blocks)
    (ready : place.lists = [] → place.AtLineStart ∧ place.inItem = false ∧ AllParted blocks) :
    start.Leads place := by
  cases blocks with
  | nil => cases member
  | cons block blocks =>
      rw [blocksItems] at member
      obtain first | later := List.mem_append.mp member
      · refine block_items_lead theme place n block start first fun outside => ?_
        obtain ⟨line, -, parted⟩ := ready outside
        exact ⟨line, parted block List.mem_cons_self⟩
      · obtain ⟨inner, inside, rfl⟩ := List.mem_map.mp later
        refine leads_behind inner place _ (blocks_items_lead theme _ _ blocks inner inside fun outside => ?_)
        obtain ⟨-, free, parted⟩ := ready outside
        obtain ⟨own, others⟩ := (Markdown.all_parted_cons _ _).mp parted
        have ended : unended? place.inItem block = none := by
          rw [free]
          exact parted_ended block own
        exact ⟨block_line_end theme place n block ended, free, others⟩

theorem items_items_lead (theme : Option String) (place : Place) (n : Nat)
    (items : List (List (Block (List Inline)))) (start : ItemStart)
    (member : start ∈ itemsItems theme place n items) (inside : place.lists ≠ [])
    (ready : place.AtLineStart) : start.Leads place := by
  cases items with
  | nil => cases member
  | cons item items =>
      rw [itemsItems] at member
      obtain here | later := List.mem_append.mp member
      · obtain rfl | below := List.mem_cons.mp here
        · exact ⟨ready, inside⟩
        · obtain ⟨inner, found, rfl⟩ := List.mem_map.mp below
          obtain ⟨line, lists⟩ := blocks_items_lead theme _ n item inner found fun outside =>
            absurd outside inside
          exact leads_behind inner place _ ⟨line, lists⟩
      · obtain ⟨inner, found, rfl⟩ := List.mem_map.mp later
        exact leads_behind inner place _
          (items_items_lead theme _ _ items inner found inside (place.behind_line_end _))
end

def ItemStart.Shows (start : ItemStart) : Prop :=
  ∃ content c, start.text? = some content ∧ c ∈ content.toList ∧ isVisible c = true

-- The item's own markup: its markers, a space, and text through something to be seen, without a NUL.
def ItemStart.Stands (start : ItemStart) (text : List Char) : Prop :=
  ∃ front c more, text = start.before ++ (start.chain ++ ' ' :: (front ++ c :: more)) ∧
    Only Solid (front ++ [c]) ∧ isVisible c = true

section
variable (start : ItemStart) (text : List Char)

theorem stands_append (more : List Char) (stands : start.Stands text) : start.Stands (text ++ more) := by
  obtain ⟨front, c, rest, same, solid, visible⟩ := stands
  exact ⟨front, c, rest ++ more, by simp [same], solid, visible⟩

theorem stands_behind (front : List Char) (stands : start.Stands text) :
    (start.behind front).Stands (front ++ text) := by
  obtain ⟨front', c, rest, same, solid, visible⟩ := stands
  exact ⟨front', c, rest, by simp [same, ItemStart.behind, ItemStart.chain], solid, visible⟩

theorem stands_trimmed (stands : start.Stands text) :
    start.Stands (Markdown.dropTrailing (· = '\n') text) := by
  obtain ⟨front, c, rest, same, solid, visible⟩ := stands
  have solid_end : decide (c = '\n') = false := by
    refine decide_eq_false fun feed => ?_
    rw [feed] at visible
    cases visible
  have split : text = (start.before ++ (start.chain ++ ' ' :: front)) ++ c :: rest := by simp [same]
  refine ⟨front, c, Markdown.dropTrailing (· = '\n') rest, ?_, solid, visible⟩
  rw [split, drop_trailing_to _ _ _ c solid_end]
  simp

end

theorem text_visible (content : List Char) (c : Char) (member : c ∈ content) (solid : Only Solid content) :
    ∃ front more, escapeText content = front ++ c :: more ∧ Only Solid (front ++ [c]) := by
  obtain ⟨front, more, same⟩ := List.append_of_mem ((escape_text_sublist content).subset member)
  have escaped := escape_text_solid content solid
  rw [same, ← List.singleton_append, ← List.append_assoc] at escaped
  exact ⟨front, more, same, ((Markdown.only_append _ _).mp escaped).1⟩

theorem text_written (theme : Option String) (place : Place) (n : Nat) (start : ItemStart)
    (content : String) (text : start.text? = some content) :
    ∃ more, blocksMarkup theme place n start.item = escapeText content.toList ++ more := by
  obtain ⟨before, lists, item⟩ := start
  unfold ItemStart.text? at text
  dsimp only at text ⊢
  split at text
  · cases text
    exact ⟨_, by rw [blocksMarkup, blockMarkup, inlinesMarkup, inlineMarkup, List.append_assoc]⟩
  · cases text
    exact ⟨_, by rw [blocksMarkup, blockMarkup, inlinesMarkup, inlineMarkup, List.append_assoc,
      List.append_assoc]⟩
  · cases text

section
variable {P : Char → Prop}

def ItemStart.Made (P : Char → Prop) (start : ItemStart) : Prop :=
  ∀ block ∈ start.item, block.Made P (MadeAll P)

theorem text_only (start : ItemStart) (content : String) (text : start.text? = some content)
    (made : start.Made P) : Only P content.toList := by
  have first (rest : List Inline) (made : MadeAll P (.text content :: rest)) : Only P content.toList := by
    obtain ⟨own, -⟩ := (Markdown.made_all_cons _ _).mp made
    cases own with
    | text _ only => exact only
  obtain ⟨before, lists, item⟩ := start
  unfold ItemStart.text? at text
  dsimp only at text
  split at text
  · cases text
    cases made _ List.mem_cons_self with
    | tight _ inside => exact first _ inside
  · cases text
    cases made _ List.mem_cons_self with
    | paragraph _ inside => exact first _ inside
  · cases text

mutual
theorem block_items_made (theme : Option String) (place : Place) (n : Nat) (block : Block (List Inline))
    (start : ItemStart) (member : start ∈ blockItems theme place n block)
    (made : block.Made P (MadeAll P)) : start.Made P := by
  cases block with
  | quote children =>
      rw [blockItems] at member
      obtain ⟨inner, inside, rfl⟩ := List.mem_map.mp member
      cases made with
      | quote _ made => exact blocks_items_made theme _ n children inner inside made
  | list number items =>
      rw [blockItems] at member
      obtain ⟨inner, inside, rfl⟩ := List.mem_map.mp member
      cases made with
      | list _ _ made => exact items_items_made theme _ n items inner inside made
  | _ => cases member

theorem blocks_items_made (theme : Option String) (place : Place) (n : Nat)
    (blocks : List (Block (List Inline))) (start : ItemStart)
    (member : start ∈ blocksItems theme place n blocks)
    (made : ∀ block ∈ blocks, block.Made P (MadeAll P)) : start.Made P := by
  cases blocks with
  | nil => cases member
  | cons block blocks =>
      obtain ⟨own, others⟩ := List.forall_mem_cons.mp made
      rw [blocksItems] at member
      obtain first | later := List.mem_append.mp member
      · exact block_items_made theme place n block start first own
      · obtain ⟨inner, inside, rfl⟩ := List.mem_map.mp later
        exact blocks_items_made theme _ _ blocks inner inside others

theorem items_items_made (theme : Option String) (place : Place) (n : Nat)
    (items : List (List (Block (List Inline)))) (start : ItemStart)
    (member : start ∈ itemsItems theme place n items)
    (made : ∀ item ∈ items, ∀ block ∈ item, block.Made P (MadeAll P)) : start.Made P := by
  cases items with
  | nil => cases member
  | cons item items =>
      obtain ⟨own, others⟩ := List.forall_mem_cons.mp made
      rw [itemsItems] at member
      obtain here | later := List.mem_append.mp member
      · obtain rfl | below := List.mem_cons.mp here
        · exact own
        · obtain ⟨inner, found, rfl⟩ := List.mem_map.mp below
          exact blocks_items_made theme _ n item inner found own
      · obtain ⟨inner, found, rfl⟩ := List.mem_map.mp later
        exact items_items_made theme _ _ items inner found others
end

end

theorem item_stands (theme : Option String) (place : Place) (n : Nat) (start : ItemStart)
    (made : start.Made Solid) (shows : start.Shows) :
    start.Stands (start.before ++ (start.chain ++ ' ' :: blocksMarkup theme place n start.item)) := by
  obtain ⟨content, c, text, member, visible⟩ := shows
  obtain ⟨more, written⟩ := text_written theme place n start content text
  have solid := text_only start content text made
  obtain ⟨front, more', escaped, only⟩ := text_visible content.toList c member solid
  exact ⟨front, c, more' ++ more, by simp [written, escaped], only, visible⟩

mutual
theorem block_items_stand (theme : Option String) (place : Place) (n : Nat) (block : Block (List Inline))
    (start : ItemStart) (member : start ∈ blockItems theme place n block) (made : start.Made Solid)
    (shows : start.Shows) : start.Stands (blockMarkup theme place n block) := by
  cases block with
  | quote children =>
      rw [blockItems] at member
      obtain ⟨inner, inside, rfl⟩ := List.mem_map.mp member
      have own := blocks_items_stand theme _ n children inner inside made shows
      exact stands_append _ _ _ (stands_trimmed _ _ (stands_behind inner _ _ own))
  | list number items =>
      rw [blockItems] at member
      obtain ⟨inner, inside, rfl⟩ := List.mem_map.mp member
      have own := items_items_stand theme _ n items inner inside (List.cons_ne_nil _ _) made shows
      exact stands_append _ _ _ (stands_behind inner _ _ own)
  | _ => cases member

theorem blocks_items_stand (theme : Option String) (place : Place) (n : Nat)
    (blocks : List (Block (List Inline))) (start : ItemStart)
    (member : start ∈ blocksItems theme place n blocks) (made : start.Made Solid) (shows : start.Shows) :
    start.Stands (blocksMarkup theme place n blocks) := by
  cases blocks with
  | nil => cases member
  | cons block blocks =>
      rw [blocksItems] at member
      obtain first | later := List.mem_append.mp member
      · exact stands_append _ _ _ (block_items_stand theme place n block start first made shows)
      · obtain ⟨inner, inside, rfl⟩ := List.mem_map.mp later
        exact stands_behind inner _ _ (blocks_items_stand theme _ _ blocks inner inside made shows)

theorem items_items_stand (theme : Option String) (place : Place) (n : Nat)
    (items : List (List (Block (List Inline)))) (start : ItemStart)
    (member : start ∈ itemsItems theme place n items) (inside : place.lists ≠ [])
    (made : start.Made Solid) (shows : start.Shows) : start.Stands (itemsMarkup theme place n items) := by
  cases items with
  | nil => cases member
  | cons item items =>
      rw [itemsItems] at member
      rw [itemsMarkup]
      obtain here | later := List.mem_append.mp member
      · refine stands_append _ _ _ (stands_append _ _ _ ?_)
        obtain rfl | below := List.mem_cons.mp here
        · rw [place.marker_append _ inside]
          exact item_stands theme _ n ⟨[], place.lists, item⟩ made shows
        · obtain ⟨inner, found, rfl⟩ := List.mem_map.mp below
          exact stands_behind inner _ _ (blocks_items_stand theme _ n item inner found made shows)
      · obtain ⟨inner, found, rfl⟩ := List.mem_map.mp later
        exact stands_behind inner _ _ (items_items_stand theme _ _ items inner found inside made shows)
end

theorem document_items_stand (theme : Option String) (source : String) (free : '\x00' ∉ source.toList)
    (start : ItemStart) (member : start ∈ documentItems theme (Markdown.parse source))
    (shows : start.Shows) :
    start.Stands (Writer.ofDocument theme (Markdown.parse source)).finish ∧ start.chain ≠ [] ∧
      (start.before = [] ∨ start.before.getLast? = some '\n') := by
  obtain ⟨line, inside⟩ := blocks_items_lead theme _ 0 _ start member fun _ =>
    ⟨.inl rfl, rfl, Markdown.parse_parted source⟩
  refine ⟨?_, by simpa [ItemStart.chain] using inside, ?_⟩
  · rw [(Writer.of_document_finish theme _).1]
    have made := blocks_items_made theme _ 0 _ start member (Markdown.parse_solid source free)
    exact blocks_items_stand theme _ 0 _ start member made shows
  · simpa [Place.AtLineStart, Place.behind] using line

end MarkdownServer.Wiki
