import MarkdownServer.Proofs.Wiki.Siblings
/- Where the targets of links and images stand in raw markup. A target stands alone, or next to the text
   of its link or the description of its image. -/
set_option autoImplicit false

namespace MarkdownServer.Wiki

open Markdown (Block Document Event HtmlLine Inline MadeAll Only)

def targetMarkup (image : Bool) (label : Option (List Char)) (url : List Char) : List Char :=
  match image, label with
  | false, none => '[' :: url ++ [']']
  | false, some text => '[' :: text ++ '|' :: url ++ [']']
  | true, none => '!' :: url ++ ['!']
  | true, some text => '!' :: url ++ "|alt=".toList ++ text ++ ['!']

def labelOf (image : Bool) (text url : List Char) : Option (List Char) :=
  if text = [] ∨ image = false ∧ text = url then none else some text

theorem link_markup (text url : List Char) :
    (Goal.link false url).render text = targetMarkup false (labelOf false text url) url := by
  unfold Goal.render labelOf
  dsimp only
  simp only [List.isEmpty_iff, true_and]
  split
  · rfl
  · rfl

theorem image_markup (text url : List Char) :
    (Goal.image url).render text = targetMarkup true (labelOf true text url) url := by
  unfold Goal.render labelOf
  dsimp only
  by_cases empty : text = []
  · simp [empty, targetMarkup]
  · simp [empty, targetMarkup]

theorem target_markup_end (image : Bool) (label : Option (List Char)) (url : List Char) :
    ∃ front c, targetMarkup image label url = front ++ [c] ∧ c ≠ '\n' := by
  cases image <;> cases label <;> exact ⟨_, _, rfl, by decide⟩

structure TargetPlace where
  before : List Char
  image : Bool
  label : Option (List Char)
  url : List Char
deriving DecidableEq

namespace TargetPlace

def behind (text : List Char) (t : TargetPlace) : TargetPlace :=
  { t with before := text ++ t.before }

def markup (t : TargetPlace) : List Char :=
  targetMarkup t.image t.label t.url

def lead (t : TargetPlace) : Bool × List Char :=
  (t.image, t.url)

def Stands (t : TargetPlace) (text : List Char) : Prop :=
  Opens (t.before ++ t.markup) text

end TargetPlace

mutual
def inlineTargets (n : Nat) : Inline → List TargetPlace
  | .styled style children => (inlinesTargets n children).map (.behind [Writer.styleMark style])
  | .link email target children =>
      let url := target.url.toList
      if email then []
      else
        ⟨[], false, labelOf false (inlinesMarkup n children) url, url⟩ ::
          (inlinesTargets n children).map (.behind ['['])
  | .image target children =>
      let url := target.url.toList
      ⟨[], true, labelOf true (inlinesMarkup n children) url, url⟩ ::
        (inlinesTargets n children).map (.behind ('!' :: url ++ "|alt=".toList))
  | _ => []

def inlinesTargets (n : Nat) : List Inline → List TargetPlace
  | [] => []
  | element :: elements =>
      inlineTargets n element ++
        (inlinesTargets (n + (inlineCode element).length) elements).map (.behind (inlineMarkup n element))
end

def cellsTargets (inHead first : Bool) (n : Nat) : List (List Inline) → List TargetPlace
  | [] => []
  | cell :: cells =>
      let bar := if first then [] else between inHead
      (inlinesTargets n cell).map (.behind bar) ++
        (cellsTargets inHead false (n + (inlinesCode cell).length) cells).map
          (.behind (bar ++ inlinesMarkup n cell))

def rowsTargets (n : Nat) : List (List (List Inline)) → List TargetPlace
  | [] => []
  | row :: rows =>
      (cellsTargets false true n row).map (.behind "| ".toList) ++
        (rowsTargets (n + (cellsCode row).length) rows).map
          (.behind ("| ".toList ++ cellsMarkup false true n row ++ " |\n".toList))

mutual
def blockTargets (theme : Option String) (place : Place) (n : Nat) :
    Block (List Inline) → List TargetPlace
  | .paragraph content => inlinesTargets n content
  | .tight content => inlinesTargets n content
  | .heading level content =>
      (inlinesTargets n content).map (.behind ("h" ++ toString level ++ ". ").toList)
  | .quote children =>
      (blocksTargets theme ⟨some '\n', place.lists, false⟩ n children).map
        (.behind "\x7bquote\x7d\n".toList)
  | .list number items =>
      let opening := if place.lists.isEmpty then [] else place.lineEnd
      let kind : ListKind := if number.isSome then .ordered else .bullet
      (itemsTargets theme { place.behind opening with lists := kind :: place.lists } n items).map
        (.behind opening)
  | .table _ head rows =>
      (cellsTargets true true n head).map (.behind "|| ".toList) ++
        (rowsTargets (n + (cellsCode head).length) rows).map
          (.behind ("|| ".toList ++ cellsMarkup true true n head ++ " ||\n".toList))
  | _ => []

def blocksTargets (theme : Option String) (place : Place) (n : Nat) :
    List (Block (List Inline)) → List TargetPlace
  | [] => []
  | block :: blocks =>
      let text := blockMarkup theme place n block
      blockTargets theme place n block ++
        (blocksTargets theme (place.behind text) (n + (blockCode theme block).length) blocks).map
          (.behind text)

def itemsTargets (theme : Option String) (place : Place) (n : Nat) :
    List (List (Block (List Inline))) → List TargetPlace
  | [] => []
  | item :: items =>
      let inside := { place.behind place.marker with inItem := true }
      let text := place.marker ++ blocksMarkup theme inside n item
      let whole := text ++ (place.behind text).lineEnd
      (blocksTargets theme inside n item).map (.behind place.marker) ++
        (itemsTargets theme (place.behind whole) (n + (blocksCode theme item).length) items).map
          (.behind whole)
end

def documentTargets (theme : Option String) (document : Document) : List TargetPlace :=
  blocksTargets theme ⟨none, [], false⟩ 0 document

def target? : Event → Option (Bool × List Char)
  | .start (.link false target) => some (false, target.url.toList)
  | .start (.image target) => some (true, target.url.toList)
  | _ => none

theorem targets_of_within (tag : Markdown.Tag) (events : List Event) :
    (Event.within tag events).filterMap target? =
      (target? (.start tag)).toList ++ events.filterMap target? := by
  have stop : target? (.stop tag) = none := rfl
  unfold Event.within
  rw [List.filterMap_cons, List.filterMap_append, List.filterMap_cons, stop]
  cases target? (.start tag) <;> simp

/- The targets are those that some events start, and are of a kind. Where there are any, the source has a
   mark that links are read from. -/
structure Led (P : Char → Prop) (targets : List TargetPlace) (events : List Event) : Prop where
  all : targets.map TargetPlace.lead = events.filterMap target?
  only : ∀ t ∈ targets, Only P t.url
  marked : targets ≠ [] → P '<' ∨ P ']'

section
variable {P : Char → Prop}

theorem led_nil (events : List Event) (plain : events.filterMap target? = []) : Led P [] events where
  all := plain.symm
  only := List.forall_mem_nil _
  marked some := absurd rfl some

theorem led_behind (text : List Char) (targets : List TargetPlace) (events : List Event)
    (led : Led P targets events) : Led P (targets.map (.behind text)) events where
  all := by
    rw [List.map_map, ← led.all]
    rfl
  only t member := by
    obtain ⟨inner, inside, rfl⟩ := List.mem_map.mp member
    exact led.only inner inside
  marked some := led.marked fun none => some (List.map_eq_nil_iff.mpr none)

theorem led_append (targets others : List TargetPlace) (events more : List Event)
    (first : Led P targets events) (second : Led P others more) :
    Led P (targets ++ others) (events ++ more) where
  all := by rw [List.map_append, List.filterMap_append, first.all, second.all]
  only := List.forall_mem_append.mpr ⟨first.only, second.only⟩
  marked some := by
    cases targets with
    | nil => exact second.marked some
    | cons target targets => exact first.marked (List.cons_ne_nil _ _)

theorem led_within (tag : Markdown.Tag) (targets : List TargetPlace) (events : List Event)
    (plain : target? (.start tag) = none) (led : Led P targets events) :
    Led P targets (Event.within tag events) where
  all := by
    rw [targets_of_within, plain, led.all]
    rfl
  only := led.only
  marked := led.marked

theorem led_own (tag : Markdown.Tag) (own : TargetPlace) (front : List Char) (targets : List TargetPlace)
    (events : List Event) (leads : target? (.start tag) = some own.lead) (url : Only P own.url)
    (mark : P '<' ∨ P ']') (led : Led P targets events) :
    Led P (own :: targets.map (.behind front)) (Event.within tag events) where
  all := by
    rw [List.map_cons, (led_behind front targets events led).all, targets_of_within, leads]
    rfl
  only := List.forall_mem_cons.mpr ⟨url, (led_behind front targets events led).only⟩
  marked _ := mark

mutual
theorem inline_led (n : Nat) (element : Inline) (made : element.Made P) :
    Led P (inlineTargets n element) (Event.ofInline element) := by
  cases made with
  | styled style children inside =>
      exact led_within (.styled style) _ _ rfl (led_behind _ _ _ (inlines_led n children inside))
  | link email target children url address inside mark =>
      cases email with
      | true =>
          rw [address rfl]
          exact led_nil _ rfl
      | false => exact led_own (.link false target) _ _ _ _ rfl url mark (inlines_led n children inside)
  | image target children url inside mark =>
      exact led_own (.image target) _ _ _ _ rfl url mark (inlines_led n children inside)
  | _ => exact led_nil _ rfl

theorem inlines_led (n : Nat) (elements : List Inline) (made : MadeAll P elements) :
    Led P (inlinesTargets n elements) (Event.ofInlines elements) := by
  cases elements with
  | nil => exact led_nil _ rfl
  | cons element elements =>
      obtain ⟨own, others⟩ := List.forall_mem_cons.mp made
      exact led_append _ _ _ _ (inline_led n element own)
        (led_behind _ _ _ (inlines_led _ elements others))
end

theorem cells_led (inHead first : Bool) (n : Nat) (cells : List (List Inline))
    (made : ∀ cell ∈ cells, MadeAll P cell) :
    Led P (cellsTargets inHead first n cells) (Event.ofCells cells) := by
  induction cells generalizing first n with
  | nil => exact led_nil _ rfl
  | cons cell cells ih =>
      obtain ⟨own, others⟩ := List.forall_mem_cons.mp made
      have inner := led_within .tableCell _ _ rfl (led_behind (if first then [] else between inHead) _ _
        (inlines_led n cell own))
      exact led_append _ _ _ _ inner (led_behind _ _ _ (ih false _ others))

theorem rows_led (n : Nat) (rows : List (List (List Inline)))
    (made : ∀ row ∈ rows, ∀ cell ∈ row, MadeAll P cell) :
    Led P (rowsTargets n rows) (rows.flatMap fun row => Event.within .tableRow (Event.ofCells row)) := by
  induction rows generalizing n with
  | nil => exact led_nil _ rfl
  | cons row rows ih =>
      obtain ⟨own, others⟩ := List.forall_mem_cons.mp made
      have inner := led_within .tableRow _ _ rfl (led_behind "| ".toList _ _ (cells_led false true n row own))
      exact led_append _ _ _ _ inner (led_behind _ _ _ (ih _ others))

theorem html_unled (lines : List HtmlLine) : (lines.flatMap Event.ofHtmlLine).filterMap target? = [] := by
  induction lines with
  | nil => rfl
  | cons line lines ih =>
      rw [List.flatMap_cons, List.filterMap_append, ih, List.append_nil]
      unfold Event.ofHtmlLine
      split
      · rfl
      · rfl

section
variable (theme : Option String)

mutual
theorem block_led (place : Place) (n : Nat) (block : Block (List Inline)) (made : block.Made P (MadeAll P)) :
    Led P (blockTargets theme place n block) (Event.ofBlock block) := by
  cases made with
  | paragraph content inside => exact led_within .paragraph _ _ rfl (inlines_led n content inside)
  | tight content inside => exact inlines_led n content inside
  | heading level content inside =>
      exact led_within (.heading level) _ _ rfl (led_behind _ _ _ (inlines_led n content inside))
  | quote children inside =>
      exact led_within .quote _ _ rfl (led_behind _ _ _ (blocks_led _ n children inside))
  | list number items inside =>
      exact led_within (.list number) _ _ rfl (led_behind _ _ _ (items_led _ n items inside))
  | html lines only => exact led_within .html _ _ rfl (led_nil _ (html_unled lines))
  | table columns head rows first rest =>
      have top := led_within .tableHead _ _ rfl
        (led_behind "|| ".toList _ _ (cells_led true true n head first))
      exact led_within (.table columns) _ _ rfl
        (led_append _ _ _ _ top (led_behind _ _ _ (rows_led _ rows rest)))
  | _ => exact led_nil _ rfl

theorem blocks_led (place : Place) (n : Nat) (blocks : List (Block (List Inline)))
    (made : ∀ block ∈ blocks, block.Made P (MadeAll P)) :
    Led P (blocksTargets theme place n blocks) (Event.ofBlocks blocks) := by
  cases blocks with
  | nil => exact led_nil _ rfl
  | cons block blocks =>
      obtain ⟨own, others⟩ := List.forall_mem_cons.mp made
      exact led_append _ _ _ _ (block_led place n block own)
        (led_behind _ _ _ (blocks_led _ _ blocks others))

theorem items_led (place : Place) (n : Nat) (items : List (List (Block (List Inline))))
    (made : ∀ item ∈ items, ∀ block ∈ item, block.Made P (MadeAll P)) :
    Led P (itemsTargets theme place n items) (Event.ofItems items) := by
  cases items with
  | nil => exact led_nil _ rfl
  | cons item items =>
      obtain ⟨own, others⟩ := List.forall_mem_cons.mp made
      have inner := led_within .item _ _ rfl (led_behind place.marker _ _
        (blocks_led { place.behind place.marker with inItem := true } n item own))
      exact led_append _ _ _ _ inner (led_behind _ _ _ (items_led _ _ items others))
end

end

end

theorem target_starts (t : TargetPlace) (text : List Char) (stands : t.Stands text) :
    t.before ++ t.markup <+: text := by
  obtain ⟨front, c, same, solid⟩ := target_markup_end t.image t.label t.url
  unfold TargetPlace.Stands Opens at stands
  rwa [TargetPlace.markup, same, ← List.append_assoc, drop_trailing_append, if_neg (by simpa using solid),
    List.append_assoc, ← same] at stands

theorem target_within (t : TargetPlace) (text : List Char) (stands : t.Stands text) :
    t.before.length < text.length := by
  obtain ⟨front, c, same, -⟩ := target_markup_end t.image t.label t.url
  have bound := (target_starts t text stands).length_le
  rw [TargetPlace.markup, same] at bound
  simp at bound
  omega

structure TargetsStand (targets : List TargetPlace) (text : List Char) : Prop where
  stand : ∀ t ∈ targets, t.Stands text
  apart : targets.Pairwise fun t u => t.before.length < u.before.length

theorem targets_stand_nil (text : List Char) : TargetsStand [] text :=
  ⟨List.forall_mem_nil _, .nil⟩

theorem targets_more (targets : List TargetPlace) (text more : List Char)
    (stand : TargetsStand targets text) : TargetsStand targets (text ++ more) :=
  ⟨fun t member => opens_append _ text more (stand.stand t member), stand.apart⟩

theorem targets_enclosed (targets : List TargetPlace) (front text back : List Char)
    (stand : TargetsStand targets text) :
    TargetsStand (targets.map (.behind front)) (front ++ text ++ back) := by
  refine targets_more _ _ back ⟨fun t member => ?_, ?_⟩
  · obtain ⟨inner, inside, rfl⟩ := List.mem_map.mp member
    have behind := opens_behind _ text front (stand.stand inner inside)
    rwa [← List.append_assoc] at behind
  · refine List.pairwise_map.mpr (stand.apart.imp fun earlier => ?_)
    simpa [TargetPlace.behind] using earlier

theorem targets_append (targets others : List TargetPlace) (text more : List Char)
    (first : TargetsStand targets text) (second : TargetsStand others more) :
    TargetsStand (targets ++ others.map (.behind text)) (text ++ more) := by
  have earlier := targets_more targets text more first
  have later := targets_enclosed others text more [] second
  rw [List.append_nil] at later
  refine ⟨List.forall_mem_append.mpr ⟨earlier.stand, later.stand⟩,
    List.pairwise_append.mpr ⟨earlier.apart, later.apart, fun t member u member' => ?_⟩⟩
  obtain ⟨inner, -, rfl⟩ := List.mem_map.mp member'
  have within := target_within t text (first.stand t member)
  simp only [TargetPlace.behind, List.length_append]
  omega

theorem targets_own (own : TargetPlace) (front : List Char) (targets : List TargetPlace) (text : List Char)
    (first : own.before = []) (opened : front ≠ []) (stands : own.Stands text)
    (inner : TargetsStand (targets.map (.behind front)) text) :
    TargetsStand (own :: targets.map (.behind front)) text := by
  refine ⟨List.forall_mem_cons.mpr ⟨stands, inner.stand⟩,
    List.pairwise_cons.mpr ⟨fun t member => ?_, inner.apart⟩⟩
  obtain ⟨inner, -, rfl⟩ := List.mem_map.mp member
  have some := List.length_pos_iff.mpr opened
  simp only [first, TargetPlace.behind, List.length_append, List.length_nil]
  omega

theorem targets_unempty (targets : List TargetPlace) (stand : TargetsStand targets []) : targets = [] :=
  List.eq_nil_iff_forall_not_mem.mpr fun t member =>
    absurd (target_within t [] (stand.stand t member)) (Nat.not_lt_zero _)

theorem link_targets_stand (url text : List Char) (targets : List TargetPlace)
    (stand : TargetsStand targets text) :
    TargetsStand (⟨[], false, labelOf false text url, url⟩ :: targets.map (.behind ['[']))
      (targetMarkup false (labelOf false text url) url) := by
  refine targets_own _ _ _ _ rfl (List.cons_ne_nil _ _) (List.rdropWhile_prefix _ _) ?_
  unfold labelOf
  split
  · rename_i bare
    obtain rfl | ⟨-, rfl⟩ := bare
    · rw [targets_unempty targets stand]
      exact targets_stand_nil _
    · exact targets_enclosed targets ['['] text [']'] stand
  · have inner := targets_enclosed targets ['['] text ('|' :: url ++ [']']) stand
    simpa [targetMarkup] using inner

theorem image_targets_stand (url text : List Char) (targets : List TargetPlace)
    (stand : TargetsStand targets text) :
    TargetsStand (⟨[], true, labelOf true text url, url⟩ ::
      targets.map (.behind ('!' :: url ++ "|alt=".toList))) (targetMarkup true (labelOf true text url) url) := by
  refine targets_own _ _ _ _ rfl (List.cons_ne_nil _ _) (List.rdropWhile_prefix _ _) ?_
  unfold labelOf
  split
  · rename_i bare
    obtain rfl | ⟨image, -⟩ := bare
    · rw [targets_unempty targets stand]
      exact targets_stand_nil _
    · cases image
  · exact targets_enclosed targets _ text ['!'] stand

mutual
theorem inline_targets_stand (n : Nat) (element : Inline) :
    TargetsStand (inlineTargets n element) (inlineMarkup n element) := by
  cases element with
  | styled style children =>
      exact targets_enclosed _ [Writer.styleMark style] _ _ (inlines_targets_stand n children)
  | link email target children =>
      cases email with
      | true => exact targets_stand_nil _
      | false =>
          rw [inlineMarkup, link_markup]
          exact link_targets_stand _ _ _ (inlines_targets_stand n children)
  | image target children =>
      rw [inlineMarkup, image_markup]
      exact image_targets_stand _ _ _ (inlines_targets_stand n children)
  | _ => exact targets_stand_nil _

theorem inlines_targets_stand (n : Nat) (elements : List Inline) :
    TargetsStand (inlinesTargets n elements) (inlinesMarkup n elements) := by
  cases elements with
  | nil => exact targets_stand_nil _
  | cons element elements =>
      exact targets_append _ _ _ _ (inline_targets_stand n element) (inlines_targets_stand _ elements)
end

theorem cells_targets_stand (inHead first : Bool) (n : Nat) (cells : List (List Inline)) :
    TargetsStand (cellsTargets inHead first n cells) (cellsMarkup inHead first n cells) := by
  induction cells generalizing first n with
  | nil => exact targets_stand_nil _
  | cons cell cells ih =>
      have own := targets_enclosed _ (if first then [] else between inHead) _ []
        (inlines_targets_stand n cell)
      rw [List.append_nil] at own
      exact targets_append _ _ _ _ own (ih false _)

theorem rows_targets_stand (n : Nat) (rows : List (List (List Inline))) :
    TargetsStand (rowsTargets n rows) (rowsMarkup n rows) := by
  induction rows generalizing n with
  | nil => exact targets_stand_nil _
  | cons row rows ih =>
      have own := targets_enclosed _ "| ".toList _ " |\n".toList (cells_targets_stand false true n row)
      exact targets_append _ _ _ _ own (ih _)

section
variable (theme : Option String)

mutual
theorem block_targets_stand (place : Place) (n : Nat) (block : Block (List Inline)) :
    TargetsStand (blockTargets theme place n block) (blockMarkup theme place n block) := by
  cases block with
  | paragraph content =>
      exact targets_more _ _ _ (inlines_targets_stand n content)
  | tight content => exact inlines_targets_stand n content
  | heading level content =>
      exact targets_enclosed _ _ _ "\n\n".toList (inlines_targets_stand n content)
  | quote children =>
      have inner := targets_enclosed _ "\x7bquote\x7d\n".toList _ []
        (blocks_targets_stand ⟨some '\n', place.lists, false⟩ n children)
      rw [List.append_nil] at inner
      exact targets_more _ _ _ ⟨fun t member => opens_trimmed _ _ (inner.stand t member), inner.apart⟩
  | list number items => exact targets_enclosed _ _ _ _ (items_targets_stand _ n items)
  | table columns head rows =>
      have top := targets_enclosed _ "|| ".toList _ " ||\n".toList (cells_targets_stand true true n head)
      have whole := targets_append _ _ _ _ top (rows_targets_stand (n + (cellsCode head).length) rows)
      exact targets_more _ _ ['\n'] whole
  | _ => exact targets_stand_nil _

theorem blocks_targets_stand (place : Place) (n : Nat) (blocks : List (Block (List Inline))) :
    TargetsStand (blocksTargets theme place n blocks) (blocksMarkup theme place n blocks) := by
  cases blocks with
  | nil => exact targets_stand_nil _
  | cons block blocks =>
      exact targets_append _ _ _ _ (block_targets_stand place n block) (blocks_targets_stand _ _ blocks)

theorem items_targets_stand (place : Place) (n : Nat) (items : List (List (Block (List Inline)))) :
    TargetsStand (itemsTargets theme place n items) (itemsMarkup theme place n items) := by
  cases items with
  | nil => exact targets_stand_nil _
  | cons item items =>
      have own := targets_enclosed _ place.marker _
        (place.behind (place.marker ++ blocksMarkup theme { place.behind place.marker with inItem := true }
          n item)).lineEnd (blocks_targets_stand { place.behind place.marker with inItem := true } n item)
      exact targets_append _ _ _ _ own (items_targets_stand _ _ items)
end

end

theorem document_targets_stand (theme : Option String) (document : Document) :
    TargetsStand (documentTargets theme document) (Writer.ofDocument theme document).finish := by
  rw [(Writer.of_document_finish theme document).1]
  exact blocks_targets_stand theme _ 0 document

end MarkdownServer.Wiki
