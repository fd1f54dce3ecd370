import MarkdownServer.Proofs.Wiki.Bold
import MarkdownServer.Proofs.Wiki.Items
import MarkdownServer.Proofs.Wiki.Page
/- What is left of the markers in front of an item. The pass over double asterisks does not know them
   as markers, so five bullets in a row are bold text for it. -/
set_option autoImplicit false

namespace MarkdownServer.Wiki

open Markdown (Only Solid)
open Text (isBlank)

namespace Cleanup

def Mark (c : Char) : Prop := c = '*' ∨ c = '#'

theorem plain_through_short (chain inside : List Char) (short : chain.length ≤ 2) :
    PlainThrough chain.length (chain ++ ' ' :: inside) := by
  intro i small bold
  obtain ⟨inner, rest, same, -, first, -⟩ := bold
  match chain, i with
  | [m], 0 => cases same
  | [m, m'], 1 => cases same
  | [m, m'], 0 =>
      cases inner with
      | nil => cases first
      | cons c inner =>
          cases same
          cases first

structure Leaves (chain inside left text : List Char) : Prop where
  passed : singleAsterisks [] (chain ++ ' ' :: inside) = left ++ ' ' :: text
  behind : Thinned (· = '*') inside text
  part : left.Sublist chain
  marked : chain ≠ [] → left ≠ []
  same : left = chain ↔ PlainThrough chain.length (chain ++ ' ' :: inside)

theorem single_asterisks_chain (chain inside : List Char) :
    ∃ left text, Leaves chain inside left text := by
  obtain ⟨left, text, passed, first, second, same⟩ := single_asterisks_to chain inside ' ' (by decide)
  refine ⟨left, text, passed, squeezed_thinned _ _ second,
    thinned_sublist _ _ (squeezed_thinned _ _ first), ?_, same⟩
  rintro marked rfl
  exact marked (List.head?_eq_none_iff.mp (squeezed_head _ _ first).symm)

section
variable (chain : List Char) (marks : Only Mark chain)
include marks

theorem marks_space : ' ' ∉ chain := by
  intro member
  obtain same | same := marks ' ' member <;> cases same

theorem marks_line : '\n' ∉ chain := by
  intro member
  obtain same | same := marks '\n' member <;> cases same

theorem marks_solid : Only Solid chain := by
  intro c member
  obtain rfl | rfl := marks c member <;> decide

end

theorem visible_kept (c : Char) (visible : isVisible c = true) : ¬ Spare c := by
  rintro (rfl | rfl) <;> cases visible

theorem passes_chain (kept : Array (List Char)) (chain front more : List Char) (c : Char)
    (marks : Only Mark chain) (solid : Only Solid (front ++ [c])) (visible : isVisible c = true) :
    ∃ left text front' more', Leaves chain (front ++ c :: more) left text ∧
      passes kept (chain ++ ' ' :: (front ++ c :: more)) = left ++ ' ' :: (front' ++ c :: more') := by
  obtain ⟨left, text, leaves⟩ := single_asterisks_chain chain (front ++ c :: more)
  have marks' : Only Mark left := Markdown.only_subset _ _ leaves.part.subset marks
  -- No line end stands among the markers.
  have lines : ∀ d ∈ left ++ [' '], ¬ d = '\n' := by
    rintro d member rfl
    obtain inside | last := List.mem_append.mp member
    · exact marks_line left marks' inside
    · cases List.mem_singleton.mp last
  have limited := limit_line_ends_thinned (left ++ ' ' :: text)
  rw [← List.singleton_append, ← List.append_assoc] at limited
  obtain ⟨text', same, thinned⟩ := Glyph.thinned_solid _ _ _ _ lines limited
  have whole : Thinned Spare (front ++ c :: more) text' :=
    thinned_trans _ _ _ (thinned_mono _ _ _ (fun _ => Or.inl) leaves.behind)
      (thinned_mono _ _ _ (fun _ => Or.inr) thinned)
  obtain ⟨front', behind, rfl, first, second⟩ := thinned_append _ _ _ whole
  have stays : ∀ d ∈ [c], ¬ Spare d := by simpa using visible_kept c visible
  obtain ⟨more', rfl, -⟩ := Glyph.thinned_solid _ [c] more _ stays second
  refine ⟨left, text, front', restore kept [] more', leaves, ?_⟩
  have plain : Only Solid (left ++ ' ' :: (front' ++ [c])) := by
    have marked := marks_solid left marks'
    obtain ⟨solid', own⟩ := (Markdown.only_append _ _).mp solid
    have thin := Markdown.only_subset _ _ (thinned_sublist _ _ first).subset solid'
    have space : Solid ' ' := by decide
    rw [Markdown.only_append, Markdown.only_cons, Markdown.only_append]
    exact ⟨marked, space, thin, own⟩
  have restored := restore_solid kept _ more' plain
  unfold passes
  rw [leaves.passed, ← List.singleton_append, ← List.append_assoc, same]
  simpa using restored

end Cleanup

theorem prefix_chain (chain left text : List Char) (free : ' ' ∉ chain) (part : left.Sublist chain) :
    chain ++ [' '] <+: left ++ ' ' :: text ↔ left = chain := by
  constructor
  · rintro ⟨behind, same⟩
    rw [List.append_assoc, List.singleton_append] at same
    obtain ⟨more, longer, same'⟩ | ⟨more, longer, same'⟩ := List.append_eq_append_iff.mp same
    · exact part.eq_of_length_le (by simp [longer])
    · cases more with
      | nil => simpa using longer.symm
      | cons c more =>
          obtain ⟨rfl, -⟩ := List.cons.inj same'
          exact absurd (by simp [longer]) free
  · rintro rfl
    exact ⟨text, by simp⟩

theorem chain_marks (start : ItemStart) : Only Cleanup.Mark start.chain := by
  intro c member
  obtain ⟨kind, -, rfl⟩ := List.mem_map.mp member
  cases kind with
  | bullet => exact .inl rfl
  | ordered => exact .inr rfl

theorem trim_chain (before left front more : List Char) (c : Char) (marks : Only Cleanup.Mark left)
    (marked : left ≠ []) (visible : isVisible c = true) :
    Text.trimBlanks (before ++ (left ++ ' ' :: (front ++ c :: more))) =
      before.dropWhile isBlank ++
        (left ++ ' ' :: (front ++ c :: Markdown.dropTrailing isBlank more)) := by
  cases left with
  | nil => exact absurd rfl marked
  | cons m left =>
      have mark : isBlank m = false := by
        obtain rfl | rfl := marks m List.mem_cons_self <;> decide
      have solid : isBlank c = false := by
        simp [isVisible] at visible
        exact visible.1
      have leading := drop_leading_to isBlank before (left ++ ' ' :: (front ++ c :: more)) m mark
      have trailing := drop_trailing_to isBlank
        (before.dropWhile isBlank ++ (m :: left ++ ' ' :: front)) more c solid
      calc
        Text.trimBlanks (before ++ (m :: left ++ ' ' :: (front ++ c :: more))) =
            Markdown.dropTrailing isBlank
              ((before ++ m :: (left ++ ' ' :: (front ++ c :: more))).dropWhile isBlank) := rfl
        _ = Markdown.dropTrailing isBlank
              (before.dropWhile isBlank ++ (m :: left ++ ' ' :: front) ++ c :: more) := by
            rw [leading]
            simp
        _ = _ := by
            rw [trailing]
            simp

theorem run_chain (kept : Array (List Char)) (before chain front more : List Char) (c : Char)
    (whole : Cleanup.WholeLines before) (marks : Only Cleanup.Mark chain) (marked : chain ≠ [])
    (solid : Only Solid (front ++ [c])) (visible : isVisible c = true) :
    ∃ left text behind, Cleanup.Leaves chain (front ++ c :: more) left text ∧
      Cleanup.WholeLines (Cleanup.passes kept before) ∧
      Cleanup.run (before ++ (chain ++ ' ' :: (front ++ c :: more))) kept =
        (Cleanup.passes kept before).dropWhile isBlank ++ (left ++ ' ' :: behind) := by
  obtain ⟨left, text, front', more', leaves, passed⟩ :=
    Cleanup.passes_chain kept chain front more c marks solid visible
  have marks' : Only Cleanup.Mark left := Markdown.only_subset _ _ leaves.part.subset marks
  have marked' : left ≠ [] := leaves.marked marked
  obtain ⟨m, left', same⟩ := List.exists_cons_of_ne_nil marked'
  have next : Cleanup.singleAsterisks [] (chain ++ ' ' :: (front ++ c :: more)) =
      m :: (left' ++ ' ' :: text) := by
    rw [leaves.passed, same]
    rfl
  have mark : m ≠ '\n' := by
    rintro rfl
    exact Cleanup.marks_line left marks' (by simp [same])
  obtain ⟨lines, joined⟩ := Cleanup.passes_whole kept before _ whole m _ next mark
  refine ⟨left, text, front' ++ c :: (Markdown.dropTrailing isBlank more' ++ ['\n']), leaves, lines, ?_⟩
  calc
    Cleanup.run (before ++ (chain ++ ' ' :: (front ++ c :: more))) kept =
        Text.trimBlanks (Cleanup.passes kept (before ++ (chain ++ ' ' :: (front ++ c :: more)))) ++
          ['\n'] := rfl
    _ = Text.trimBlanks (Cleanup.passes kept before ++ (left ++ ' ' :: (front' ++ c :: more'))) ++
          ['\n'] := by
        rw [joined, passed]
    _ = _ := by
        rw [trim_chain _ left front' more' c marks' marked' visible]
        simp

theorem blank_source_silent (theme : Option String) (source : String) (blank : Text.allBlank source = true)
    (start : ItemStart) (member : start ∈ documentItems theme (Markdown.parse source)) :
    ¬ start.Shows := by
  rintro ⟨content, c, text, inside, visible⟩
  have made := blocks_items_made theme _ 0 _ start member (Markdown.parse_blank source blank)
  have own : isBlank c = true := text_only start content text made c inside
  simp [isVisible, own] at visible

/- An item that begins with text starts a line of the page, with a space behind some of the markers
   of its lists. All of them are there exactly where no bold text starts among them. -/
theorem convert_starts_items (options : Options) (source page : String)
    (accepted : convert options source = .ok page) :
    let w := Writer.ofDocument options.theme (Markdown.parse source)
    ∀ start ∈ documentItems options.theme (Markdown.parse source), start.Shows →
      ∃ rest front line left, w.finish = start.before ++ (start.chain ++ ' ' :: rest) ∧
        page.toList = front ++ line ∧ Cleanup.WholeLines front ∧
        front = (Cleanup.passes w.kept start.before).dropWhile isBlank ∧
        left ++ [' '] <+: line ∧ left.Sublist start.chain ∧ left ≠ [] ∧
        (start.chain ++ [' '] <+: line ↔
          Cleanup.PlainThrough start.chain.length (start.chain ++ ' ' :: rest)) := by
  intro w start member shows
  obtain ⟨free, -, written⟩ := convert_ok options source page accepted
  by_cases blank : Text.allBlank source = true
  · exact absurd shows (blank_source_silent options.theme source blank start member)
  · obtain ⟨⟨front, c, more, raw, solid, visible⟩, marked, line⟩ :=
      document_items_stand options.theme source free start member shows
    have marks := chain_marks start
    have whole : Cleanup.WholeLines start.before := by
      rwa [Cleanup.WholeLines, ← List.getLast?_eq_some_iff]
    obtain ⟨left, text, behind, leaves, lines, printed⟩ :=
      run_chain w.kept start.before start.chain front more c whole marks marked solid visible
    rw [← raw] at printed
    refine ⟨front ++ c :: more, _, left ++ ' ' :: behind, left, raw,
      (written (Bool.eq_false_iff.mpr blank)).trans printed,
      Cleanup.whole_suffix _ _ lines (List.dropWhile_suffix _), rfl, ⟨behind, by simp⟩, leaves.part,
      leaves.marked marked, ?_⟩
    rw [prefix_chain _ _ _ (Cleanup.marks_space _ marks) leaves.part]
    exact leaves.same

theorem convert_starts_items_mixed :
    convert {} "1. a\n   - b\n" = .ok "# a\n#* b\n" ∧
    ∃ start ∈ documentItems none (Markdown.parse "1. a\n   - b\n"),
      start.text? = some "b" ∧ start.chain = "#*".toList ∧
      ∃ front line, "# a\n#* b\n".toList = front ++ line ∧ Cleanup.WholeLines front ∧
        "#* ".toList <+: line := by
  have accepted : convert {} "1. a\n   - b\n" = .ok "# a\n#* b\n" := by decide +kernel
  have present : ∃ start ∈ documentItems none (Markdown.parse "1. a\n   - b\n"),
      start.text? = some "b" ∧ start.chain = "#*".toList := by decide +kernel
  obtain ⟨start, member, text, chain⟩ := present
  have shows : start.Shows := ⟨"b", 'b', text, by decide, by decide⟩
  obtain ⟨rest, front, line, left, -, printed, lines, -, -, -, -, whole⟩ :=
    convert_starts_items {} _ _ accepted start member shows
  refine ⟨accepted, start, member, text, chain, front, line, printed, lines, ?_⟩
  rw [chain] at whole
  exact whole.mpr (Cleanup.plain_through_short _ rest (by decide))

theorem deep_item_shortened :
    (∃ start ∈ documentItems none (Markdown.parse "- a\n  - b\n    - c\n      - d\n        - e"),
      start.text? = some "e" ∧ start.chain = "*****".toList) ∧
    convert {} "- a\n  - b\n    - c\n      - d\n        - e" =
      .ok "* a\n** b\n*** c\n**** d\n*** e\n" ∧
    ¬ "***** ".toList <:+: "* a\n** b\n*** c\n**** d\n*** e\n".toList := by
  refine ⟨?_, ?_, ?_⟩
  · decide +kernel
  · decide +kernel
  · decide +kernel

end MarkdownServer.Wiki
