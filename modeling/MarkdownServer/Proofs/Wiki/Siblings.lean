import MarkdownServer.Proofs.Markdown.Regularity
import MarkdownServer.Proofs.Wiki.Items
import MarkdownServer.Proofs.Wiki.Lines
import MarkdownServer.Proofs.Wiki.Page
/- Where the blocks of a document start in its raw markup. A block starts a line, or stands right behind
   the markers of its item. But text in an item has no line end behind it, so the next block of the item
   runs on from there, unless it is a list. -/
set_option autoImplicit false

namespace MarkdownServer.Wiki

open Cleanup (WholeLines)
open Markdown (AllParted AllRegular Block Document Inline)

def Place.opening (place : Place) : Block (List Inline) → List Char
  | .list _ _ => if place.lists.isEmpty then [] else place.lineEnd
  | _ => []

def isList : Block (List Inline) → Bool
  | .list _ _ => true
  | _ => false

structure BlockStart where
  before : List Char
  lists : List ListKind
  inItem : Bool
  previous : Option (Block (List Inline) × List Char)
  block : Block (List Inline)
  opening : List Char
  markup : List Char

namespace BlockStart

def behind (text : List Char) (start : BlockStart) : BlockStart :=
  { start with before := text ++ start.before }

def chain (start : BlockStart) : List Char :=
  start.lists.reverse.map ListKind.marker

def joins (start : BlockStart) (block : Block (List Inline)) : Bool :=
  (unended? start.inItem block).isSome && !isList start.block

end BlockStart

mutual
def blockStarts (theme : Option String) (place : Place) (n : Nat) :
    Block (List Inline) → List BlockStart
  | .quote children =>
      blocksStarts theme ⟨some '\n', place.lists, false⟩ n "\x7bquote\x7d\n".toList none children
  | .list number items =>
      let opening := if place.lists.isEmpty then [] else place.lineEnd
      let kind : ListKind := if number.isSome then .ordered else .bullet
      (itemsStarts theme { place.behind opening with lists := kind :: place.lists } n items).map
        (.behind opening)
  | _ => []

def blocksStarts (theme : Option String) (place : Place) (n : Nat) (front : List Char)
    (previous : Option (Block (List Inline) × List Char)) : List (Block (List Inline)) → List BlockStart
  | [] => []
  | block :: blocks =>
      let text := blockMarkup theme place n block
      ⟨front, place.lists, place.inItem, previous, block, place.opening block, text⟩ ::
        (blockStarts theme place n block).map (.behind front) ++
        blocksStarts theme (place.behind text) (n + (blockCode theme block).length) (front ++ text)
          (some (block, text)) blocks

def itemsStarts (theme : Option String) (place : Place) (n : Nat) :
    List (List (Block (List Inline))) → List BlockStart
  | [] => []
  | item :: items =>
      let inside := { place.behind place.marker with inItem := true }
      let text := place.marker ++ blocksMarkup theme inside n item
      let whole := text ++ (place.behind text).lineEnd
      blocksStarts theme inside n place.marker none item ++
        (itemsStarts theme (place.behind whole) (n + (blocksCode theme item).length) items).map
          (.behind whole)
end

def documentStarts (theme : Option String) (document : Document) : List BlockStart :=
  blocksStarts theme ⟨none, [], false⟩ 0 [] none document

def BlockStart.pair (start : BlockStart) : Option (Block (List Inline)) × Block (List Inline) :=
  (start.previous.map Prod.fst, start.block)

mutual
def blockPairs : Block (List Inline) → List (Option (Block (List Inline)) × Block (List Inline))
  | .quote children => blocksPairs none children
  | .list _ items => itemsPairs items
  | _ => []

def blocksPairs (previous : Option (Block (List Inline))) :
    List (Block (List Inline)) → List (Option (Block (List Inline)) × Block (List Inline))
  | [] => []
  | block :: blocks => (previous, block) :: blockPairs block ++ blocksPairs (some block) blocks

def itemsPairs :
    List (List (Block (List Inline))) → List (Option (Block (List Inline)) × Block (List Inline))
  | [] => []
  | item :: items => blocksPairs none item ++ itemsPairs items
end

@[simp]
theorem pairs_behind (text : List Char) (starts : List BlockStart) :
    (starts.map (.behind text)).map BlockStart.pair = starts.map BlockStart.pair := by
  simp [BlockStart.pair, BlockStart.behind]

mutual
theorem block_starts_all (theme : Option String) (place : Place) (n : Nat) (block : Block (List Inline)) :
    (blockStarts theme place n block).map BlockStart.pair = blockPairs block := by
  cases block with
  | quote children => exact blocks_starts_all theme _ n _ none children
  | list start items =>
      rw [blockStarts, pairs_behind]
      exact items_starts_all theme _ n items
  | _ => rfl

theorem blocks_starts_all (theme : Option String) (place : Place) (n : Nat) (front : List Char)
    (previous : Option (Block (List Inline) × List Char)) (blocks : List (Block (List Inline))) :
    (blocksStarts theme place n front previous blocks).map BlockStart.pair =
      blocksPairs (previous.map Prod.fst) blocks := by
  cases blocks with
  | nil => rfl
  | cons block blocks =>
      have inner := block_starts_all theme place n block
      have rest := blocks_starts_all theme (place.behind (blockMarkup theme place n block))
        (n + (blockCode theme block).length) (front ++ blockMarkup theme place n block)
        (some (block, blockMarkup theme place n block)) blocks
      rw [blocksStarts, List.map_append, List.map_cons, pairs_behind, inner, rest]
      rfl

theorem items_starts_all (theme : Option String) (place : Place) (n : Nat)
    (items : List (List (Block (List Inline)))) :
    (itemsStarts theme place n items).map BlockStart.pair = itemsPairs items := by
  cases items with
  | nil => rfl
  | cons item items =>
      rw [itemsStarts, List.map_append, pairs_behind, items_starts_all theme _ _ items,
        blocks_starts_all theme _ n _ none item]
      rfl
end

-- What holds of a block holds of the blocks inside of it.
structure Inherited (Q : Block (List Inline) → Prop) : Prop where
  quote : ∀ children, Q (.quote children) → ∀ child ∈ children, Q child
  list : ∀ start items, Q (.list start items) → ∀ item ∈ items, ∀ child ∈ item, Q child

section
variable {Q : Block (List Inline) → Prop}

mutual
theorem block_pairs_inherit (inherited : Inherited Q) (block : Block (List Inline)) (own : Q block) :
    ∀ pair ∈ blockPairs block, Q pair.2 := by
  cases block with
  | quote children => exact blocks_pairs_inherit inherited none children (inherited.quote children own)
  | list start items => exact items_pairs_inherit inherited items (inherited.list start items own)
  | _ => exact List.forall_mem_nil _

theorem blocks_pairs_inherit (inherited : Inherited Q) (previous : Option (Block (List Inline)))
    (blocks : List (Block (List Inline))) (all : ∀ block ∈ blocks, Q block) :
    ∀ pair ∈ blocksPairs previous blocks, Q pair.2 := by
  cases blocks with
  | nil => exact List.forall_mem_nil _
  | cons block blocks =>
      obtain ⟨own, others⟩ := List.forall_mem_cons.mp all
      exact List.forall_mem_append.mpr
        ⟨List.forall_mem_cons.mpr ⟨own, block_pairs_inherit inherited block own⟩,
        blocks_pairs_inherit inherited (some block) blocks others⟩

theorem items_pairs_inherit (inherited : Inherited Q) (items : List (List (Block (List Inline))))
    (all : ∀ item ∈ items, ∀ block ∈ item, Q block) : ∀ pair ∈ itemsPairs items, Q pair.2 := by
  cases items with
  | nil => exact List.forall_mem_nil _
  | cons item items =>
      obtain ⟨own, others⟩ := List.forall_mem_cons.mp all
      exact List.forall_mem_append.mpr
        ⟨blocks_pairs_inherit inherited none item own, items_pairs_inherit inherited items others⟩
end

theorem document_starts_inherit (inherited : Inherited Q) (theme : Option String) (document : Document)
    (all : ∀ block ∈ document, Q block) (start : BlockStart)
    (member : start ∈ documentStarts theme document) : Q start.block := by
  have listed : start.pair ∈ blocksPairs none document := by
    have pairs := blocks_starts_all theme ⟨none, [], false⟩ 0 [] none document
    rw [Option.map_none] at pairs
    exact pairs ▸ List.mem_map_of_mem member
  exact blocks_pairs_inherit inherited none document all start.pair listed

end

theorem regular_inherited (P : Char → Prop) : Inherited (Block.Regular P) where
  quote children regular := by
    cases regular with
    | quote _ _ inside => exact inside
  list start items regular := by
    cases regular with
    | list _ _ inside => exact inside

theorem document_starts_regular (theme : Option String) (source : String) (start : BlockStart)
    (member : start ∈ documentStarts theme (Markdown.parse source)) :
    start.block.Regular fun _ => True :=
  document_starts_inherit (regular_inherited _) theme _ (Markdown.parse_nested source) start member

-- The text starts with a part of it, but for line ends at the end of the part, which a quote may take off.
def Opens (part text : List Char) : Prop := Markdown.dropTrailing (· = '\n') part <+: text

section
variable (part text : List Char)

theorem opens_start (more : List Char) : Opens part (part ++ more) :=
  (List.rdropWhile_prefix _ part).trans (List.prefix_append part more)

theorem opens_append (more : List Char) (opens : Opens part text) : Opens part (text ++ more) :=
  opens.trans (List.prefix_append text more)

theorem drop_trailing_behind (front : List Char) :
    Markdown.dropTrailing (· = '\n') (front ++ part) <+:
      front ++ Markdown.dropTrailing (· = '\n') part := by
  induction part using List.reverseRecOn with
  | nil =>
      rw [List.append_nil]
      exact (List.rdropWhile_prefix _ front).trans (List.prefix_append front _)
  | append_singleton part c ih =>
      rw [← List.append_assoc, drop_trailing_append, drop_trailing_append]
      split
      · exact ih
      · exact (List.append_assoc front part [c]).symm ▸ List.prefix_refl _

theorem opens_behind (front : List Char) (opens : Opens part text) : Opens (front ++ part) (front ++ text) :=
  (drop_trailing_behind part front).trans ((List.prefix_append_right_inj front).mpr opens)

theorem opens_trimmed (opens : Opens part text) : Opens part (Markdown.dropTrailing (· = '\n') text) := by
  obtain ⟨more, rfl⟩ := opens
  unfold Opens
  induction more using List.reverseRecOn with
  | nil =>
      have again : Markdown.dropTrailing (· = '\n') (Markdown.dropTrailing (· = '\n') part) =
          Markdown.dropTrailing (· = '\n') part := List.rdropWhile_idempotent _ part
      rw [List.append_nil]
      exact ⟨[], by rw [List.append_nil, again]⟩
  | append_singleton more c ih =>
      rw [← List.append_assoc, drop_trailing_append]
      split
      · exact ih
      · exact (List.prefix_append _ more).trans (List.prefix_append _ [c])

end

def BlockStart.Stands (start : BlockStart) (text : List Char) : Prop :=
  Opens (start.before ++ start.markup) text

/- How a part of the markup relates to the text that goes on behind it, whatever is written in front of
   both or behind the text, and though a quote trims the text before it ends it with a line of its own. -/
structure Standing (R : List Char → List Char → Prop) : Prop where
  first : ∀ part more, R part (part ++ more)
  behind : ∀ front part text, R part text → R (front ++ part) (front ++ text)
  append : ∀ part text more, R part text → R part (text ++ more)
  quoted : ∀ part text, R part text →
    R part (Markdown.dropTrailing (· = '\n') text ++ "\n\x7bquote\x7d\n\n".toList)

theorem opens_standing : Standing Opens where
  first := opens_start
  behind front part text := opens_behind part text front
  append := opens_append
  quoted part text opens := opens_append part _ _ (opens_trimmed part text opens)

def Lined (part text : List Char) : Prop :=
  ∀ line, line.getLast? ≠ some '\n' → line ++ ['\n'] <+: part → line ++ ['\n'] <+: text

theorem lined_behind (front part text : List Char) (lined : Lined part text) :
    Lined (front ++ part) (front ++ text) := by
  rintro line unended ⟨more, same⟩
  obtain ⟨behind, whole, -⟩ | ⟨behind, whole, rest⟩ := List.append_eq_append_iff.mp same
  · rw [whole]
    exact (List.prefix_append _ behind).trans (List.prefix_append _ text)
  · cases behind using List.reverseRecOn with
    | nil =>
        rw [whole, List.append_nil]
        exact List.prefix_append front text
    | append_singleton behind c =>
        rw [← List.append_assoc] at whole
        obtain ⟨rfl, feed⟩ := List.append_inj' whole rfl
        rw [← feed] at rest
        have open' : behind.getLast? ≠ some '\n' := fun ended => unended (by simp [ended])
        rw [List.append_assoc]
        exact (List.prefix_append_right_inj front).mpr (lined behind open' ⟨more, rest.symm⟩)

theorem lined_quoted (part text more : List Char) (lined : Lined part text) :
    Lined part (Markdown.dropTrailing (· = '\n') text ++ '\n' :: more) := by
  intro line unended stands
  obtain ⟨rest, rfl⟩ := lined line unended stands
  have own : Markdown.dropTrailing (· = '\n') line = line := by
    cases line using List.reverseRecOn with
    | nil => rfl
    | append_singleton line c =>
        rw [drop_trailing_append, if_neg]
        simpa using unended
  have kept : Opens line (Markdown.dropTrailing (· = '\n') (line ++ ['\n'] ++ rest)) :=
    opens_trimmed line _ (opens_append line _ _ (opens_start line _))
  have part : Markdown.dropTrailing (· = '\n') (line ++ ['\n'] ++ rest) <+: line ++ ['\n'] ++ rest :=
    List.rdropWhile_prefix _ _
  rw [Opens, own] at kept
  obtain ⟨behind, whole⟩ := kept
  rw [← whole, List.append_assoc, List.prefix_append_right_inj] at part
  rw [← whole, List.append_assoc, List.prefix_append_right_inj]
  cases behind with
  | nil => exact ⟨more, rfl⟩
  | cons c behind =>
      obtain ⟨rfl, -⟩ := List.cons_prefix_cons.mp part
      exact ⟨behind ++ '\n' :: more, rfl⟩

theorem lined_standing : Standing Lined where
  first part more _ _ stands := stands.trans (List.prefix_append part more)
  behind := lined_behind
  append _ text more lined line unended stands :=
    (lined line unended stands).trans (List.prefix_append text more)
  quoted part text := lined_quoted part text "\x7bquote\x7d\n\n".toList

theorem opening_of_others (place : Place) (block : Block (List Inline)) (other : isList block = false) :
    place.opening block = [] := by
  cases block with
  | list start items => cases other
  | _ => rfl

structure BlockStart.Written (theme : Option String) (R : List Char → List Char → Prop)
    (start : BlockStart) (text : List Char) : Prop where
  own : ∃ place n, start.markup = blockMarkup theme place n start.block
  stands : R (start.before ++ start.markup) text
  opening : isList start.block = false → start.opening = []

section
variable (theme : Option String) {R : List Char → List Char → Prop} (standing : Standing R)
include standing

theorem start_written_behind (start : BlockStart) (text front : List Char)
    (written : start.Written theme R text) : (start.behind front).Written theme R (front ++ text) where
  own := written.own
  stands := by
    rw [BlockStart.behind, List.append_assoc]
    exact standing.behind front _ text written.stands
  opening := written.opening

theorem start_written_append (start : BlockStart) (text more : List Char)
    (written : start.Written theme R text) : start.Written theme R (text ++ more) :=
  ⟨written.own, standing.append _ text more written.stands, written.opening⟩

mutual
theorem block_starts_written (place : Place) (n : Nat) (block : Block (List Inline)) (start : BlockStart)
    (member : start ∈ blockStarts theme place n block) :
    start.Written theme R (blockMarkup theme place n block) := by
  cases block with
  | quote children =>
      have inner := blocks_starts_written _ n _ none children start member
      exact ⟨inner.own, standing.quoted _ _ inner.stands, inner.opening⟩
  | list number items =>
      obtain ⟨inner, inside, rfl⟩ := List.mem_map.mp member
      have within := items_starts_written _ n items inner inside
      exact start_written_append theme standing _ _ _ (start_written_behind theme standing inner _ _ within)
  | _ => cases member

theorem blocks_starts_written (place : Place) (n : Nat) (front : List Char)
    (previous : Option (Block (List Inline) × List Char)) (blocks : List (Block (List Inline)))
    (start : BlockStart) (member : start ∈ blocksStarts theme place n front previous blocks) :
    start.Written theme R (front ++ blocksMarkup theme place n blocks) := by
  cases blocks with
  | nil => cases member
  | cons block blocks =>
      rw [blocksStarts] at member
      rw [blocksMarkup, ← List.append_assoc]
      obtain here | later := List.mem_append.mp member
      · obtain rfl | below := List.mem_cons.mp here
        · exact ⟨⟨place, n, rfl⟩, standing.first _ _, opening_of_others place block⟩
        · obtain ⟨inner, inside, rfl⟩ := List.mem_map.mp below
          have within := block_starts_written place n block inner inside
          exact start_written_append theme standing _ _ _
            (start_written_behind theme standing inner _ front within)
      · exact blocks_starts_written _ _ _ _ blocks start later

theorem items_starts_written (place : Place) (n : Nat) (items : List (List (Block (List Inline))))
    (start : BlockStart) (member : start ∈ itemsStarts theme place n items) :
    start.Written theme R (itemsMarkup theme place n items) := by
  cases items with
  | nil => cases member
  | cons item items =>
      rw [itemsStarts] at member
      rw [itemsMarkup]
      obtain here | later := List.mem_append.mp member
      · have within := blocks_starts_written _ n _ none item start here
        exact start_written_append theme standing _ _ _ (start_written_append theme standing _ _ _ within)
      · obtain ⟨inner, inside, rfl⟩ := List.mem_map.mp later
        exact start_written_behind theme standing inner _ _ (items_starts_written _ _ items inner inside)
end

theorem document_starts_written (document : Document) (start : BlockStart)
    (member : start ∈ documentStarts theme document) :
    start.Written theme R (Writer.ofDocument theme document).finish := by
  rw [(Writer.of_document_finish theme document).1]
  exact blocks_starts_written theme standing _ 0 [] none document start member

end

theorem blocks_starts_stand (theme : Option String) (place : Place) (n : Nat) (front : List Char)
    (previous : Option (Block (List Inline) × List Char)) (blocks : List (Block (List Inline)))
    (start : BlockStart) (member : start ∈ blocksStarts theme place n front previous blocks) :
    start.Stands (front ++ blocksMarkup theme place n blocks) :=
  (blocks_starts_written theme opens_standing place n front previous blocks start member).stands

structure BlockStart.Ruled (start : BlockStart) (line : List Char → Prop) : Prop where
  opening : start.opening <+: start.markup
  first : start.previous = none → line (start.before ++ start.opening) ∨
    start.inItem = true ∧ start.chain ++ [' '] <:+ start.before
  behind : ∀ block text, start.previous = some (block, text) → text <:+ start.before
  apart : ∀ block text, start.previous = some (block, text) → start.joins block = false →
    line (start.before ++ start.opening)
  joined : ∀ block text, start.previous = some (block, text) → start.joins block = true →
    start.inItem = true ∧ start.opening = [] ∧
      ∃ n content, unended? true block = some content ∧ text = inlinesMarkup n content

def Place.line (place : Place) (text : List Char) : Prop := (place.behind text).AtLineStart

theorem line_reached (place inner : Place) (front : List Char)
    (same : inner.last = (place.behind front).last) (text : List Char) (line : inner.line text) :
    place.line (front ++ text) := by
  rw [Place.line, ← Writer.behind_behind]
  unfold Place.line Place.AtLineStart Place.behind at line
  rw [same] at line
  exact line

theorem ruled_behind (start : BlockStart) (front : List Char) (near far : List Char → Prop)
    (reach : ∀ text, near text → far (front ++ text)) (ruled : start.Ruled near) :
    (start.behind front).Ruled far where
  opening := ruled.opening
  first fresh := by
    obtain line | ⟨item, ending⟩ := ruled.first fresh
    · refine .inl ?_
      rw [BlockStart.behind, List.append_assoc]
      exact reach _ line
    · exact .inr ⟨item, ending.trans (List.suffix_append front _)⟩
  behind block text same := (ruled.behind block text same).trans (List.suffix_append front _)
  apart block text same free := by
    rw [BlockStart.behind, List.append_assoc]
    exact reach _ (ruled.apart block text same free)
  joined := ruled.joined

inductive Ready (place : Place) (front : List Char) :
    Option (Block (List Inline) × List Char) → Prop where
  | first (fresh : place.AtLineStart ∨
      place.inItem = true ∧ place.lists.reverse.map ListKind.marker ++ [' '] <:+ front) :
      Ready place front none
  | next (block : Block (List Inline)) (text : List Char) (ending : text <:+ front)
      (ended : unended? place.inItem block = none → place.AtLineStart)
      (left : ∀ content, unended? place.inItem block = some content →
        place.inItem = true ∧ ∃ n, text = inlinesMarkup n content) :
      Ready place front (some (block, text))

theorem ready_next (theme : Option String) (place : Place) (n : Nat) (front : List Char)
    (block : Block (List Inline)) (parted : place.inItem = false → block.Parted) :
    Ready (place.behind (blockMarkup theme place n block)) (front ++ blockMarkup theme place n block)
      (some (block, blockMarkup theme place n block)) := by
  refine .next block _ (List.suffix_append _ _) (block_line_end theme place n block) ?_
  intro content left
  have left' : unended? place.inItem block = some content := left
  have item : place.inItem = true := by
    by_contra outside
    rw [Bool.not_eq_true] at outside
    rw [outside, parted_ended block (parted outside)] at left'
    cases left'
  refine ⟨item, n, ?_⟩
  rw [item] at left'
  cases block with
  | paragraph content =>
      cases left'
      simp [blockMarkup, item]
  | tight content =>
      cases left'
      rfl
  | _ => cases left'

theorem opening_prefix (theme : Option String) (place : Place) (n : Nat) (block : Block (List Inline)) :
    place.opening block <+: blockMarkup theme place n block := by
  cases block with
  | list start items =>
      rw [Place.opening, blockMarkup, List.append_assoc]
      exact List.prefix_append _ _
  | _ => exact List.nil_prefix

theorem opening_keeps_line (place : Place) (block : Block (List Inline)) (ready : place.AtLineStart) :
    (place.behind (place.opening block)).AtLineStart := by
  cases block with
  | list start items =>
      rw [Place.opening]
      split
      · exact ready
      · exact place.line_end_reached
  | _ => exact ready

theorem list_opens_line (place : Place) (block : Block (List Inline)) (list : isList block = true)
    (inside : place.lists ≠ []) : (place.behind (place.opening block)).AtLineStart := by
  cases block with
  | list start items =>
      have within : place.lists.isEmpty = false := List.isEmpty_eq_false_iff.mpr inside
      rw [Place.opening, within, if_neg (by decide)]
      exact place.line_end_reached
  | _ => cases list

theorem block_ruled (theme : Option String) (place : Place) (n : Nat) (front : List Char)
    (previous : Option (Block (List Inline) × List Char)) (block : Block (List Inline))
    (line : List Char → Prop) (reach : ∀ text, place.line text → line (front ++ text))
    (ready : Ready place front previous) (inside : place.inItem = true → place.lists ≠ []) :
    BlockStart.Ruled ⟨front, place.lists, place.inItem, previous, block, place.opening block,
      blockMarkup theme place n block⟩ line where
  opening := opening_prefix theme place n block
  first fresh := by
    cases fresh
    cases ready with
    | first fresh =>
        obtain start | item := fresh
        · exact .inl (reach _ (opening_keeps_line place block start))
        · exact .inr item
  behind other text same := by
    cases same
    cases ready with
    | next _ _ ending _ _ => exact ending
  apart other text same free := by
    cases same
    cases ready with
    | next _ _ _ ended left =>
        apply reach
        cases unended : unended? place.inItem other with
        | none => exact opening_keeps_line place block (ended unended)
        | some content =>
            obtain ⟨item, -⟩ := left content unended
            refine list_opens_line place block ?_ (inside item)
            simpa [BlockStart.joins, unended] using free
  joined other text same joins := by
    cases same
    cases ready with
    | next _ _ _ ended left =>
        obtain ⟨some, plain⟩ := Bool.and_eq_true_iff.mp joins
        obtain ⟨content, unended⟩ := Option.isSome_iff_exists.mp some
        obtain ⟨item, m, written⟩ := left content unended
        have unended' : unended? place.inItem other = .some content := unended
        rw [item] at unended'
        exact ⟨item, opening_of_others place block (by simpa using plain), m, content, unended', written⟩

mutual
theorem block_starts_ruled (theme : Option String) (place : Place) (n : Nat) (block : Block (List Inline))
    (start : BlockStart) (member : start ∈ blockStarts theme place n block)
    (regular : block.Regular fun _ => True) : start.Ruled place.line := by
  cases block with
  | quote children =>
      cases regular with
      | quote _ parted inner =>
          exact blocks_starts_ruled theme ⟨some '\n', place.lists, false⟩ n _ none children start member
            place.line (line_reached place _ _ rfl) (.first (.inl (.inr rfl))) nofun (fun _ => parted) inner
  | list number items =>
      cases regular with
      | list _ _ inner =>
          obtain ⟨other, inside, rfl⟩ := List.mem_map.mp member
          have within := items_starts_ruled theme _ n items other inside (List.cons_ne_nil _ _) inner
          exact ruled_behind other _ _ _ (line_reached place _ _ rfl) within
  | _ => cases member

theorem blocks_starts_ruled (theme : Option String) (place : Place) (n : Nat) (front : List Char)
    (previous : Option (Block (List Inline) × List Char)) (blocks : List (Block (List Inline)))
    (start : BlockStart) (member : start ∈ blocksStarts theme place n front previous blocks)
    (line : List Char → Prop) (reach : ∀ text, place.line text → line (front ++ text))
    (ready : Ready place front previous) (inside : place.inItem = true → place.lists ≠ [])
    (parted : place.inItem = false → AllParted blocks) (regular : AllRegular (fun _ => True) blocks) :
    start.Ruled line := by
  cases blocks with
  | nil => cases member
  | cons block blocks =>
      obtain ⟨own, others⟩ := (Markdown.all_regular_cons _ _).mp regular
      have first (outside : place.inItem = false) := (Markdown.all_parted_cons _ _).mp (parted outside)
      rw [blocksStarts] at member
      obtain here | later := List.mem_append.mp member
      · obtain rfl | below := List.mem_cons.mp here
        · exact block_ruled theme place n front previous block line reach ready inside
        · obtain ⟨inner, found, rfl⟩ := List.mem_map.mp below
          exact ruled_behind inner front _ _ reach (block_starts_ruled theme place n block inner found own)
      · refine blocks_starts_ruled theme _ _ _ _ blocks start later line (fun text next => ?_)
          (ready_next theme place n front block fun outside => (first outside).1) inside
          (fun outside => (first outside).2) others
        rw [List.append_assoc]
        exact reach _ (line_reached place _ _ rfl text next)

theorem items_starts_ruled (theme : Option String) (place : Place) (n : Nat)
    (items : List (List (Block (List Inline)))) (start : BlockStart)
    (member : start ∈ itemsStarts theme place n items) (inside : place.lists ≠ [])
    (regular : ∀ item ∈ items, AllRegular (fun _ => True) item) : start.Ruled place.line := by
  cases items with
  | nil => cases member
  | cons item items =>
      obtain ⟨own, others⟩ := List.forall_mem_cons.mp regular
      rw [itemsStarts] at member
      obtain here | later := List.mem_append.mp member
      · have marker : place.lists.reverse.map ListKind.marker ++ [' '] <:+ place.marker := by
          have written := place.marker_append [] inside
          rw [List.append_nil] at written
          exact written ▸ List.suffix_refl _
        exact blocks_starts_ruled theme { place.behind place.marker with inItem := true } n place.marker none
          item start here place.line (line_reached place _ _ rfl) (.first (.inr ⟨rfl, marker⟩))
          (fun _ => inside) nofun own
      · obtain ⟨inner, found, rfl⟩ := List.mem_map.mp later
        have further := items_starts_ruled theme _ _ items inner found inside others
        exact ruled_behind inner _ _ _ (line_reached place _ _ rfl) further
end

/- Every block of a document starts a line of the raw markup, or stands right behind the markers of its
   item, or runs on from the text of an item, and only from there. -/
structure BlocksApart (theme : Option String) (document : Document) : Prop where
  all : (documentStarts theme document).map BlockStart.pair = blocksPairs none document
  stands : ∀ start ∈ documentStarts theme document,
    start.Stands (Writer.ofDocument theme document).finish
  ruled : ∀ start ∈ documentStarts theme document, start.Ruled WholeLines

theorem document_blocks_apart (theme : Option String) (source : String) :
    BlocksApart theme (Markdown.parse source) where
  all := blocks_starts_all theme _ 0 [] none _
  stands start member := by
    rw [(Writer.of_document_finish theme _).1]
    exact blocks_starts_stand theme _ 0 [] none _ start member
  ruled start member := by
    refine blocks_starts_ruled theme ⟨none, [], false⟩ 0 [] none _ start member WholeLines ?_
      (.first (.inl (.inl rfl))) nofun (fun _ => Markdown.parse_parted source) (Markdown.parse_nested source)
    intro text line
    rw [WholeLines, ← List.getLast?_eq_some_iff]
    simpa [Place.line, Place.AtLineStart, Place.behind] using line

theorem item_paragraphs_joined :
    convert {} "- a\n\n  b" = .ok "* ab\n" ∧
    (Markdown.parse "- a\n\n  b").events =
      [.start (.list none), .start .item, .start .paragraph, .text "a", .stop .paragraph,
        .start .paragraph, .text "b", .stop .paragraph, .stop .item, .stop (.list none)] ∧
    (∃ start ∈ documentStarts none (Markdown.parse "- a\n\n  b"), start.previous.isSome = true ∧
      start.before = "* a".toList ∧ start.opening = [] ∧ start.markup = ['b']) ∧
    convert {} "- a\n  # b" = .ok "* ah1. b\n" := by
  refine ⟨?_, ?_, ?_, ?_⟩
  · decide +kernel
  · decide +kernel
  · decide +kernel
  · decide +kernel

end MarkdownServer.Wiki
