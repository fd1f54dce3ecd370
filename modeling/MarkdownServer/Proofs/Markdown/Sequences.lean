import MarkdownServer.Markdown.Event
/- Sequences of events in which every element that starts is stopped in its turn. The events of a document
   are such a sequence, and such a sequence of inline events is that of a list of inline elements. -/
set_option autoImplicit false

namespace MarkdownServer.Markdown

def Tag.isCode : Tag → Bool
  | .code _ => true
  | _ => false

namespace Event

def isLeaf : Event → Bool
  | .start _ => false
  | .stop _ => false
  | _ => true

-- In a block of code there is nothing but its text.
inductive Nested : List Event → Prop where
  | nil : Nested []
  | leaf (event : Event) (rest : List Event) (single : event.isLeaf = true) (more : Nested rest) :
      Nested (event :: rest)
  | element (tag : Tag) (inner rest : List Event) (other : tag.isCode = false) (inside : Nested inner)
      (more : Nested rest) : Nested (within tag inner ++ rest)
  | code (info : Option String) (texts : List String) (rest : List Event) (more : Nested rest) :
      Nested (within (.code info) (texts.map .text) ++ rest)

theorem nested_append (events more : List Event) (nested : Nested events) (further : Nested more) :
    Nested (events ++ more) := by
  induction nested with
  | nil => exact further
  | leaf event rest single _ ih => exact .leaf event _ single ih
  | element tag inner rest other inside _ _ ih =>
      rw [List.append_assoc]
      exact .element tag inner _ other inside ih
  | code info texts rest _ ih =>
      rw [List.append_assoc]
      exact .code info texts _ ih

theorem nested_within (tag : Tag) (inner : List Event) (other : tag.isCode = false)
    (inside : Nested inner) : Nested (within tag inner) := by
  have nested := Nested.element tag inner [] other inside .nil
  rwa [List.append_nil] at nested

theorem nested_single (event : Event) (single : event.isLeaf = true) : Nested [event] :=
  .leaf event [] single .nil

theorem nested_flat_map {α : Type} (xs : List α) (events : α → List Event)
    (each : ∀ x ∈ xs, Nested (events x)) : Nested (xs.flatMap events) := by
  induction xs with
  | nil => exact .nil
  | cons x xs ih =>
      obtain ⟨first, rest⟩ := List.forall_mem_cons.mp each
      rw [List.flatMap_cons]
      exact nested_append _ _ first (ih rest)

mutual
theorem inline_nested (element : Inline) : Nested (ofInline element) := by
  cases element with
  | styled style children => exact nested_within _ _ rfl (inlines_nested children)
  | link email target children => exact nested_within _ _ rfl (inlines_nested children)
  | image target children => exact nested_within _ _ rfl (inlines_nested children)
  | _ => exact nested_single _ rfl

theorem inlines_nested (elements : List Inline) : Nested (ofInlines elements) := by
  cases elements with
  | nil => exact .nil
  | cons element elements => exact nested_append _ _ (inline_nested element) (inlines_nested elements)
end

theorem cells_nested (cells : List (List Inline)) : Nested (ofCells cells) :=
  nested_flat_map cells _ fun cell _ => nested_within _ _ rfl (inlines_nested cell)

theorem html_line_nested (line : HtmlLine) : Nested (ofHtmlLine line) := by
  unfold ofHtmlLine
  apply nested_append
  · split
    · exact .nil
    · exact nested_single _ rfl
  · exact nested_single _ rfl

mutual
theorem block_nested (block : Block (List Inline)) : Nested (ofBlock block) := by
  cases block with
  | paragraph content => exact nested_within _ _ rfl (inlines_nested content)
  | tight content => exact inlines_nested content
  | heading level content => exact nested_within _ _ rfl (inlines_nested content)
  | quote children => exact nested_within _ _ rfl (blocks_nested children)
  | list number items => exact nested_within _ _ rfl (items_nested items)
  | code info content =>
      have nested := Nested.code info [content] [] .nil
      rwa [List.append_nil] at nested
  | html lines =>
      exact nested_within _ _ rfl (nested_flat_map lines _ fun line _ => html_line_nested line)
  | rule => exact nested_single _ rfl
  | table columns head rows =>
      refine nested_within _ _ rfl (nested_append _ _ (nested_within _ _ rfl (cells_nested head)) ?_)
      exact nested_flat_map rows _ fun row _ => nested_within _ _ rfl (cells_nested row)

theorem blocks_nested (blocks : List (Block (List Inline))) : Nested (ofBlocks blocks) := by
  cases blocks with
  | nil => exact .nil
  | cons block blocks => exact nested_append _ _ (block_nested block) (blocks_nested blocks)

theorem items_nested (items : List (List (Block (List Inline)))) : Nested (ofItems items) := by
  cases items with
  | nil => exact .nil
  | cons item items =>
      exact nested_append _ _ (nested_within _ _ rfl (blocks_nested item)) (items_nested items)
end

def isInlineTag : Tag → Bool
  | .styled _ => true
  | .link _ _ => true
  | .image _ => true
  | _ => false

def isInline : Event → Bool
  | .start tag => isInlineTag tag
  | .stop tag => isInlineTag tag
  | .rule => false
  | _ => true

def inlined : Event → Event
  | .html content => .inlineHtml content
  | event => event

theorem within_inlined (tag : Tag) (inner : List Event) :
    (within tag inner).map inlined = within tag (inner.map inlined) := by
  simp [within, inlined]

theorem leaf_tree (event : Event) (single : event.isLeaf = true) (inline : event.isInline = true) :
    ∃ element, ofInline element = [event.inlined] := by
  cases event with
  | text content => exact ⟨.text content, rfl⟩
  | code content => exact ⟨.code content, rfl⟩
  | html content => exact ⟨.html content, rfl⟩
  | inlineHtml content => exact ⟨.html content, rfl⟩
  | softBreak => exact ⟨.softBreak, rfl⟩
  | hardBreak => exact ⟨.hardBreak, rfl⟩
  | task done => exact ⟨.task done, rfl⟩
  | rule => cases inline
  | start tag => cases single
  | stop tag => cases single

theorem element_tree (tag : Tag) (children : List Inline) (inline : isInlineTag tag = true) :
    ∃ element, ofInline element = within tag (ofInlines children) := by
  cases tag with
  | styled style => exact ⟨.styled style children, rfl⟩
  | link email target => exact ⟨.link email target children, rfl⟩
  | image target => exact ⟨.image target children, rfl⟩
  | _ => cases inline

theorem inline_tree (events : List Event) (nested : Nested events)
    (inline : ∀ event ∈ events, event.isInline = true) :
    ∃ elements, ofInlines elements = events.map inlined := by
  induction nested with
  | nil => exact ⟨[], rfl⟩
  | leaf event rest single _ ih =>
      obtain ⟨first, others⟩ := List.forall_mem_cons.mp inline
      obtain ⟨element, own⟩ := leaf_tree event single first
      obtain ⟨elements, more⟩ := ih others
      exact ⟨element :: elements, by rw [ofInlines, own, more]; rfl⟩
  | element tag inner rest _ _ _ inside ih =>
      obtain ⟨whole, others⟩ := List.forall_mem_append.mp inline
      obtain ⟨first, body⟩ := List.forall_mem_cons.mp whole
      obtain ⟨children, own⟩ := inside (List.forall_mem_append.mp body).1
      obtain ⟨element, same⟩ := element_tree tag children first
      obtain ⟨elements, more⟩ := ih others
      refine ⟨element :: elements, ?_⟩
      rw [ofInlines, same, own, more, List.map_append, within_inlined]
  | code info texts rest _ _ =>
      have first := inline (.start (.code info)) (by simp [within])
      cases first

end Event
end MarkdownServer.Markdown
