import Mathlib.Data.String.Basic
import MarkdownServer.Proofs.Markdown.Regularity
import MarkdownServer.Proofs.Wiki.Lines
import MarkdownServer.Proofs.Wiki.Page
/- The shape of what a conversion gives: a fault for a source that is too large or has a NUL, nothing for
   a blank source, and else one trimmed text with a line end behind it. Outside of code it has no two
   empty lines in a row, and it has a NUL only where the theme has one. -/
set_option autoImplicit false

namespace MarkdownServer.Wiki

open Markdown (AllRegular Block Document Inline MadeAll Only Solid)
open Rendering (Fault)
open String (utf8Len)
open Text (isBlank)

theorem bytes_counted (text : List Char) (n : Nat) :
    text.foldl (fun n c => n + c.utf8Size) n = n + utf8Len text := by
  induction text generalizing n with
  | nil => simp
  | cons c text ih =>
      rw [List.foldl_cons, ih, String.utf8Len_cons]
      omega

theorem nul_offset_first (front back : List Char) (first : '\x00' ∉ front) :
    nulOffset? (front ++ '\x00' :: back) = some (String.ofList front).utf8ByteSize := by
  have taken : (front ++ '\x00' :: back).takeWhile (· != '\x00') = front := by
    rw [List.takeWhile_append_of_pos]
    · simp
    · intro c member
      exact bne_iff_ne.mpr fun same => first (same ▸ member)
  unfold nulOffset?
  rw [if_pos (by simp), taken, bytes_counted, String.utf8ByteSize_ofList, Nat.zero_add]

inductive Refused (options : Options) (source : String) : Fault → Prop where
  | large (above : options.limit < source.utf8ByteSize) :
      Refused options source (.inputTooLarge source.utf8ByteSize options.limit)
  | nul (within : source.utf8ByteSize ≤ options.limit) (front back : List Char)
      (found : source.toList = front ++ '\x00' :: back) (first : '\x00' ∉ front) :
      Refused options source (.nulCharacter (String.ofList front).utf8ByteSize)

theorem convert_large (options : Options) (source : String) (above : options.limit < source.utf8ByteSize) :
    convert options source = .error (.inputTooLarge source.utf8ByteSize options.limit) := by
  unfold convert Rendering.checkSize
  rw [if_pos above]
  rfl

theorem convert_nul (options : Options) (source : String) (within : source.utf8ByteSize ≤ options.limit)
    (front back : List Char) (found : source.toList = front ++ '\x00' :: back) (first : '\x00' ∉ front) :
    convert options source = .error (.nulCharacter (String.ofList front).utf8ByteSize) := by
  have offset := nul_offset_first front back first
  rw [← found] at offset
  unfold convert Rendering.checkSize
  rw [if_neg (by omega), offset]
  rfl

theorem convert_error (options : Options) (source : String) (fault : Fault) :
    convert options source = .error fault ↔ Refused options source fault := by
  constructor
  · intro failed
    by_cases above : options.limit < source.utf8ByteSize
    · rw [convert_large options source above] at failed
      cases failed
      exact .large above
    · have within : source.utf8ByteSize ≤ options.limit := by omega
      by_cases nul : '\x00' ∈ source.toList
      · obtain ⟨front, back, found, first⟩ := List.eq_append_cons_of_mem nul
        rw [convert_nul options source within front back found first] at failed
        cases failed
        exact .nul within front back found first
      · have sized : Rendering.checkSize source options.limit = .ok () := if_neg above
        by_cases blank : Text.allBlank source = true
        · simp [convert, sized, nulOffset?, nul, blank, bind, Except.bind, pure, Except.pure] at failed
        · rw [convert_page options source sized nul (Bool.eq_false_iff.mpr blank)] at failed
          cases failed
  · intro refused
    cases refused with
    | large above => exact convert_large options source above
    | nul within front back found first => exact convert_nul options source within front back found first

def gap : List Char := ['\n', '\n', '\n']

theorem gap_long (count : Nat) : ¬ gap <:+: List.replicate (min count 2) '\n' := by
  intro inside
  have longer := inside.length_le
  rw [List.length_replicate] at longer
  have short : gap.length = 3 := rfl
  omega

theorem gap_apart (front back : List Char) (c : Char) (solid : c ≠ '\n')
    (inside : gap <:+: front ++ c :: back) : gap <:+: front ∨ gap <:+: back := by
  obtain before | behind | ⟨left, right, whole, ending, opening⟩ := List.infix_append_iff.mp inside
  · exact .inl before
  · obtain opening | behind := List.infix_cons_iff.mp behind
    · obtain ⟨more, same⟩ := opening
      cases same
      exact absurd rfl solid
    · exact .inr behind
  · cases right with
    | nil =>
        rw [List.append_nil] at whole
        exact .inl (whole ▸ ending.isInfix)
    | cons d right =>
        obtain ⟨rfl, -⟩ := List.cons_prefix_cons.mp opening
        have member : d ∈ gap := whole ▸ List.mem_append_right left List.mem_cons_self
        simp [gap] at member
        exact absurd member solid

namespace Cleanup

theorem limit_line_ends_gap (count : Nat) (text : List Char) :
    ¬ gap <:+: List.replicate (min count 2) '\n' ++ limitLineEnds [] count text := by
  induction text generalizing count with
  | nil => simpa [limitLineEnds] using gap_long count
  | cons c text ih =>
      by_cases feed : c = '\n'
      · by_cases short : count < 2
        · have grown := ih (count + 1)
          have more : min (count + 1) 2 = min count 2 + 1 := by omega
          rw [more, List.replicate_succ', List.append_assoc, List.singleton_append] at grown
          rw [limitLineEnds, if_pos feed, if_pos short, limit_line_ends_done, feed]
          exact grown
        · have full := ih (count + 1)
          have same : min (count + 1) 2 = min count 2 := by omega
          rw [same] at full
          rw [limitLineEnds, if_pos feed, if_neg short]
          exact full
      · rw [limitLineEnds, if_neg feed, limit_line_ends_done]
        intro inside
        obtain before | behind := gap_apart _ _ c feed inside
        · exact gap_long count before
        · exact ih 0 (by simpa using behind)

theorem limit_line_ends_spaced (count : Nat) (text : List Char)
    (spaced : ¬ gap <:+: List.replicate (min count 2) '\n' ++ text) : limitLineEnds [] count text = text := by
  induction text generalizing count with
  | nil => rfl
  | cons c text ih =>
      by_cases feed : c = '\n'
      · subst feed
        by_cases short : count < 2
        · have more : min (count + 1) 2 = min count 2 + 1 := by omega
          have next := ih (count + 1) (by
            rw [more, List.replicate_succ', List.append_assoc]
            exact spaced)
          rw [limitLineEnds, if_pos rfl, if_pos short, limit_line_ends_done, next]
          rfl
        · have full : min count 2 = 2 := by omega
          rw [full] at spaced
          exact absurd ⟨[], text, rfl⟩ spaced
      · have next := ih 0 fun inside => by
          have within : gap <:+: text := by simpa using inside
          exact spaced (within.trans ⟨List.replicate (min count 2) '\n' ++ [c], [], by simp⟩)
        rw [limitLineEnds, if_neg feed, limit_line_ends_done, next]
        rfl

theorem limit_line_ends_same (text : List Char) : limitLineEnds [] 0 text = text ↔ ¬ gap <:+: text := by
  constructor
  · intro same
    have left := limit_line_ends_gap 0 text
    rwa [same] at left
  · exact fun spaced => limit_line_ends_spaced 0 text spaced

end Cleanup

namespace Glyph

theorem gap_spelled (n : Nat) (glyphs : List Glyph) (inside : gap.map .plain <:+: glyphs) :
    gap <:+: spell n glyphs := by
  obtain ⟨front, back, rfl⟩ := inside
  rw [spell_append, spell_append, spell_plain]
  exact ⟨_, _, rfl⟩

-- Pieces of code start with a brace, so a line end that is printed first is a line end.
theorem print_feed (glyphs : List Glyph) (more : List Char)
    (braced : ∀ piece ∈ pieces glyphs, Braced piece) (printed : print glyphs = '\n' :: more) :
    ∃ rest, glyphs = .plain '\n' :: rest ∧ print rest = more := by
  cases glyphs with
  | nil => cases printed
  | cons glyph glyphs =>
      cases glyph with
      | plain c =>
          cases printed
          exact ⟨glyphs, rfl, rfl⟩
      | code piece =>
          obtain ⟨opening, -⟩ := braced piece List.mem_cons_self
          obtain ⟨inner, rfl⟩ := List.head?_eq_some_iff.mp opening
          cases printed

def InPiece (glyphs : List Glyph) (front back : List Char) : Prop :=
  ∃ before piece after inner outer, glyphs = before ++ .code piece :: after ∧
    front = print before ++ inner ∧ piece = inner ++ gap ++ outer ∧ back = outer ++ print after

theorem in_piece_behind (glyph : Glyph) (glyphs : List Glyph) (front back : List Char)
    (inside : InPiece glyphs front back) : InPiece (glyph :: glyphs) (print [glyph] ++ front) back := by
  obtain ⟨before, piece, after, inner, outer, rfl, rfl, whole, rfl⟩ := inside
  refine ⟨glyph :: before, piece, after, inner, outer, rfl, ?_, whole, rfl⟩
  have joined := print_append [glyph] before
  rw [List.singleton_append] at joined
  rw [joined, List.append_assoc]

theorem gap_in_piece (glyphs : List Glyph) (front back : List Char)
    (braced : ∀ piece ∈ pieces glyphs, Braced piece) (spaced : ¬ gap.map .plain <:+: glyphs)
    (printed : print glyphs = front ++ (gap ++ back)) : InPiece glyphs front back := by
  induction glyphs generalizing front with
  | nil => simp [print, gap] at printed
  | cons glyph glyphs ih =>
      have spaced' : ¬ gap.map .plain <:+: glyphs := fun inside => spaced (List.infix_cons inside)
      cases glyph with
      | plain c =>
          cases front with
          | nil =>
              -- Three line ends in a row are plain all three of them.
              obtain ⟨rfl, first⟩ := List.cons.inj printed
              obtain ⟨rest, rfl, second⟩ := print_feed glyphs _ braced first
              obtain ⟨rest', rfl, -⟩ := print_feed rest _ braced second
              exact absurd ⟨[], rest', rfl⟩ spaced
          | cons d front =>
              obtain ⟨rfl, behind⟩ := List.cons.inj printed
              exact in_piece_behind (.plain c) glyphs front back (ih front braced spaced' behind)
      | code piece =>
          obtain ⟨own, others⟩ := List.forall_mem_cons.mp braced
          have later (front : List Char) (behind : print glyphs = front ++ (gap ++ back)) :
              InPiece (.code piece :: glyphs) (piece ++ front) back := by
            have inner := in_piece_behind (.code piece) glyphs front back (ih front others spaced' behind)
            simpa [print] using inner
          obtain ⟨left, rfl, behind⟩ | ⟨left, whole, ending⟩ := List.append_eq_append_iff.mp printed
          · exact later left behind
          · obtain ⟨outer, same, rest⟩ | ⟨outer, cut, rest⟩ := List.append_eq_append_iff.mp ending
            · exact ⟨[], piece, glyphs, front, outer, rfl, rfl, by simp [whole, same], rest⟩
            · -- A piece ends in a brace, so none of the line ends stands at its end.
              cases left using List.reverseRecOn with
              | nil =>
                  rw [List.append_nil] at whole
                  subst whole
                  have inner := later [] (by rw [rest, cut]; rfl)
                  rwa [List.append_nil] at inner
              | append_singleton left c =>
                  have closing := own.2
                  rw [whole, ← List.append_assoc, List.getLast?_concat] at closing
                  cases closing
                  have member : '\x7d' ∈ gap := by simp [cut]
                  exact absurd member (by decide)

theorem trim_front (glyphs : List Glyph) (braced : ∀ piece ∈ pieces glyphs, Braced piece) :
    ∃ kept, kept <:+ glyphs ∧ pieces kept = pieces glyphs ∧
      (print glyphs).dropWhile isBlank = print kept := by
  induction glyphs with
  | nil => exact ⟨[], List.suffix_refl [], rfl, rfl⟩
  | cons glyph glyphs ih =>
      cases glyph with
      | plain c =>
          by_cases blank : isBlank c = true
          · obtain ⟨kept, part, same, dropped⟩ := ih braced
            refine ⟨kept, part.trans (List.suffix_cons _ _), same, ?_⟩
            rw [print, List.dropWhile_cons_of_pos blank, dropped]
          · refine ⟨_, List.suffix_refl _, rfl, ?_⟩
            rw [print, List.dropWhile_cons_of_neg blank]
      | code piece =>
          refine ⟨_, List.suffix_refl _, rfl, ?_⟩
          simpa [print] using drop_front [] piece (print glyphs) (braced piece List.mem_cons_self)

theorem trim_back (glyphs : List Glyph) (braced : ∀ piece ∈ pieces glyphs, Braced piece) :
    ∃ kept, kept <+: glyphs ∧ pieces kept = pieces glyphs ∧
      Markdown.dropTrailing isBlank (print glyphs) = print kept := by
  induction glyphs using List.reverseRecOn with
  | nil => exact ⟨[], List.prefix_refl [], rfl, rfl⟩
  | append_singleton glyphs glyph ih =>
      rw [pieces_append] at braced
      obtain ⟨others, own⟩ := List.forall_mem_append.mp braced
      rw [print_append, pieces_append]
      cases glyph with
      | plain c =>
          rw [print, print, drop_trailing_append]
          by_cases blank : isBlank c = true
          · obtain ⟨kept, part, same, dropped⟩ := ih others
            refine ⟨kept, part.trans (List.prefix_append _ _), by simpa [pieces] using same, ?_⟩
            rw [if_pos blank, dropped]
          · refine ⟨_, List.prefix_refl _, pieces_append _ _, ?_⟩
            rw [if_neg blank, print_append]
            rfl
      | code piece =>
          refine ⟨_, List.prefix_refl _, pieces_append _ _, ?_⟩
          have kept := drop_back (print glyphs) piece [] (own piece List.mem_cons_self)
          rw [print_append]
          simpa [print, Markdown.dropTrailing] using kept

theorem trim_print (glyphs : List Glyph) (braced : ∀ piece ∈ pieces glyphs, Braced piece) :
    ∃ kept, kept <:+: glyphs ∧ pieces kept = pieces glyphs ∧
      Text.trimBlanks (print glyphs) = print kept := by
  obtain ⟨back, ending, same, dropped⟩ := trim_front glyphs braced
  obtain ⟨kept, opening, same', dropped'⟩ := trim_back back (same ▸ braced)
  refine ⟨kept, opening.isInfix.trans ending.isInfix, same'.trans same, ?_⟩
  calc
    Text.trimBlanks (print glyphs) =
        Markdown.dropTrailing isBlank ((print glyphs).dropWhile isBlank) := rfl
    _ = print kept := by rw [dropped, dropped']

end Glyph

def Trimmed (text : List Char) : Prop :=
  (∀ c, text.head? = some c → isBlank c = false) ∧ ∀ c, text.getLast? = some c → isBlank c = false

theorem drop_while_head (text : List Char) (c : Char) (first : (text.dropWhile isBlank).head? = some c) :
    isBlank c = false := by
  have stays := List.head?_dropWhile_not isBlank text
  rw [first] at stays
  simpa using stays

theorem trim_trimmed (text : List Char) : Trimmed (Text.trimBlanks text) := by
  refine ⟨fun c first => ?_, fun c last => ?_⟩
  · have opening : Text.trimBlanks text <+: text.dropWhile isBlank := List.rdropWhile_prefix isBlank _
    obtain ⟨more, same⟩ := List.head?_eq_some_iff.mp first
    obtain ⟨behind, whole⟩ := opening
    rw [same] at whole
    exact drop_while_head text c (by rw [← whole]; rfl)
  · rw [Text.trimBlanks, List.getLast?_reverse] at last
    exact drop_while_head _ c last

theorem gap_trimmed (glyphs : List Glyph) (trimmed : Trimmed (Glyph.print glyphs))
    (spaced : ¬ gap.map .plain <:+: glyphs) : ¬ gap.map .plain <:+: glyphs ++ [.plain '\n'] := by
  intro inside
  obtain ending | within := List.infix_concat_iff.mp inside
  · obtain ⟨front, same⟩ := ending
    have last : glyphs = front ++ [.plain '\n', .plain '\n'] := by
      have whole : front ++ [.plain '\n', .plain '\n'] ++ [.plain '\n'] = glyphs ++ [.plain '\n'] := by
        rw [← same]
        simp [gap]
      exact (List.append_cancel_right whole).symm
    have blank := trimmed.2 '\n' (by rw [last, Glyph.print_append, List.getLast?_append]; rfl)
    exact absurd blank (by decide)
  · exact spaced within

theorem code_span_solid (code : List Char) (solid : Only Solid code) : Only Solid (codeSpan code) := by
  have inner := escape_code_solid code solid
  have braces : Solid '\x7b' ∧ Solid '\x7d' := by decide
  simp [codeSpan, inner, braces]

theorem trim_only (P : Char → Prop) (text : String) (only : Only P text.toList) :
    Only P (Text.trim text).toList := by
  rw [Text.trim, String.toList_ofList, Text.trimBlanks, Markdown.only_reverse]
  exact Markdown.only_drop_while _ _ ((Markdown.only_reverse _).mpr (Markdown.only_drop_while _ _ only))

def NameSolid (name : Option String) : Prop := ∀ text, name = some text → Only Solid text.toList

theorem code_parameters_solid (language theme : Option String) (named : NameSolid language)
    (themed : NameSolid theme) : ∀ text ∈ codeParameters language theme, Only Solid text.toList := by
  intro text member
  unfold codeParameters at member
  obtain first | second := List.mem_append.mp member
  · split at first
    · have known : ∀ text ∈ ["language=text", "title=mermaid", "collapse=true"],
          Only Solid text.toList := by decide
      exact known text first
    · cases first
    · rename_i name _ _
      cases List.mem_singleton.mp first
      have own := named name rfl
      rw [String.toList_append]
      exact (Markdown.only_append _ _).mpr ⟨by decide, own⟩
    · cases first
  · obtain ⟨name, given, rfl⟩ := Option.map_eq_some_iff.mp (Option.mem_toList.mp second)
    rw [String.toList_append]
    exact (Markdown.only_append _ _).mpr ⟨by decide, themed name given⟩

theorem joined_solid (texts : List String) (solid : ∀ text ∈ texts, Only Solid text.toList) :
    Only Solid ("|".intercalate texts).toList := by
  induction texts with
  | nil => decide
  | cons text texts ih =>
      obtain ⟨own, others⟩ := List.forall_mem_cons.mp solid
      cases texts with
      | nil => simpa using own
      | cons next texts =>
          have bar : Only Solid "|".toList := by decide
          rw [String.intercalate_cons_cons, String.toList_append, String.toList_append,
            Markdown.only_append, Markdown.only_append]
          exact ⟨⟨own, bar⟩, ih others⟩

theorem code_macro_solid (language theme : Option String) (text : List Char) (named : NameSolid language)
    (themed : NameSolid theme) (solid : Only Solid text) : Only Solid (codeMacro language theme text) := by
  have header : Only Solid (if (codeParameters language theme).isEmpty then ""
      else ":" ++ "|".intercalate (codeParameters language theme)).toList := by
    split
    · decide
    · rw [String.toList_append]
      exact (Markdown.only_append _ _).mpr
        ⟨by decide, joined_solid _ (code_parameters_solid language theme named themed)⟩
  have body : Only Solid (if text.getLast? = some '\n' then text.dropLast else text) := by
    split
    · exact Markdown.only_subset _ _ (List.dropLast_subset text) solid
    · exact solid
  have opening : Only Solid "\x7bcode".toList := by decide
  have opened : Only Solid "\x7d\n".toList := by decide
  have closing : Only Solid "\n\x7bcode\x7d".toList := by decide
  unfold codeMacro
  simp only [Markdown.only_append]
  exact ⟨⟨⟨⟨opening, header⟩, opened⟩, body⟩, closing⟩

def PiecesSolid (pieces : List (List Char)) : Prop := ∀ piece ∈ pieces, Only Solid piece

mutual
theorem inline_code_solid (element : Inline) (made : element.Made Solid) :
    PiecesSolid (inlineCode element) := by
  cases made with
  | text content only => exact List.forall_mem_nil _
  | code content only => exact List.forall_mem_singleton.mpr (code_span_solid _ only)
  | html content only => exact List.forall_mem_nil _
  | softBreak => exact List.forall_mem_nil _
  | hardBreak => exact List.forall_mem_nil _
  | task done => exact List.forall_mem_nil _
  | styled style children inside => exact inlines_code_solid children inside
  | link email target children url address inside _ => exact inlines_code_solid children inside
  | image target children url inside _ => exact inlines_code_solid children inside

theorem inlines_code_solid (elements : List Inline) (made : MadeAll Solid elements) :
    PiecesSolid (inlinesCode elements) := by
  cases elements with
  | nil => exact List.forall_mem_nil _
  | cons element elements =>
      obtain ⟨first, rest⟩ := (Markdown.made_all_cons _ _).mp made
      exact List.forall_mem_append.mpr ⟨inline_code_solid element first, inlines_code_solid elements rest⟩
end

theorem cells_code_solid (cells : List (List Inline)) (made : ∀ cell ∈ cells, MadeAll Solid cell) :
    PiecesSolid (cellsCode cells) := by
  intro piece member
  obtain ⟨cell, inside, found⟩ := List.mem_flatMap.mp member
  exact inlines_code_solid cell (made cell inside) piece found

mutual
theorem block_code_solid (theme : Option String) (themed : NameSolid theme) (block : Block (List Inline))
    (made : block.Made Solid (MadeAll Solid)) (regular : block.Regular Solid) :
    PiecesSolid (blockCode theme block) := by
  cases block with
  | paragraph content =>
      cases made with
      | paragraph _ inside => exact inlines_code_solid content inside
  | tight content =>
      cases made with
      | tight _ inside => exact inlines_code_solid content inside
  | heading level content =>
      cases made with
      | heading _ _ inside => exact inlines_code_solid content inside
  | quote children =>
      cases made with
      | quote _ inside =>
          cases regular with
          | quote _ _ within => exact blocks_code_solid theme themed children inside within
  | list start items =>
      cases made with
      | list _ _ inside =>
          cases regular with
          | list _ _ within => exact items_code_solid theme themed items inside within
  | code info content =>
      cases made with
      | code _ _ only =>
          cases regular with
          | code _ _ named =>
              have language : NameSolid (info.map Text.trim) := by
                intro text same
                obtain ⟨name, given, rfl⟩ := Option.map_eq_some_iff.mp same
                exact trim_only Solid name (named name given)
              exact List.forall_mem_singleton.mpr (code_macro_solid _ theme _ language themed only)
  | html lines => exact List.forall_mem_nil _
  | rule => exact List.forall_mem_nil _
  | table columns head rows =>
      cases made with
      | table _ _ _ first rest =>
          refine List.forall_mem_append.mpr ⟨cells_code_solid head first, fun piece member => ?_⟩
          obtain ⟨row, inside, found⟩ := List.mem_flatMap.mp member
          exact cells_code_solid row (rest row inside) piece found

theorem blocks_code_solid (theme : Option String) (themed : NameSolid theme)
    (blocks : List (Block (List Inline)))
    (made : ∀ block ∈ blocks, block.Made Solid (MadeAll Solid)) (regular : AllRegular Solid blocks) :
    PiecesSolid (blocksCode theme blocks) := by
  cases blocks with
  | nil => exact List.forall_mem_nil _
  | cons block blocks =>
      obtain ⟨first, rest⟩ := List.forall_mem_cons.mp made
      obtain ⟨own, others⟩ := (Markdown.all_regular_cons _ _).mp regular
      exact List.forall_mem_append.mpr
        ⟨block_code_solid theme themed block first own, blocks_code_solid theme themed blocks rest others⟩

theorem items_code_solid (theme : Option String) (themed : NameSolid theme)
    (items : List (List (Block (List Inline))))
    (made : ∀ item ∈ items, ∀ block ∈ item, block.Made Solid (MadeAll Solid))
    (regular : ∀ item ∈ items, AllRegular Solid item) : PiecesSolid (itemsCode theme items) := by
  cases items with
  | nil => exact List.forall_mem_nil _
  | cons item items =>
      obtain ⟨first, rest⟩ := List.forall_mem_cons.mp made
      obtain ⟨own, others⟩ := List.forall_mem_cons.mp regular
      exact List.forall_mem_append.mpr
        ⟨blocks_code_solid theme themed item first own, items_code_solid theme themed items rest others⟩
end

theorem print_solid (glyphs : List Glyph) (clean : Glyph.Clean glyphs)
    (pieces : PiecesSolid (Glyph.pieces glyphs)) : Only Solid (Glyph.print glyphs) := by
  induction glyphs with
  | nil => exact Markdown.only_nil
  | cons glyph glyphs ih =>
      have clean' : Glyph.Clean glyphs := fun c member => clean c (List.mem_cons_of_mem _ member)
      cases glyph with
      | plain c => exact (Markdown.only_cons _ _).mpr ⟨clean c List.mem_cons_self, ih clean' pieces⟩
      | code piece =>
          obtain ⟨own, others⟩ := List.forall_mem_cons.mp pieces
          exact (Markdown.only_append _ _).mpr ⟨own, ih clean' others⟩

/- A page prints glyphs of the cleaned markup, without some blanks at the two ends, and a line end. The
   pieces of code among them are all that the writer kept. -/
structure Prints (w : Writer) (page : List Char) (glyphs : List Glyph) : Prop where
  cleaned : ∃ cut, Cleanup.limitLineEnds [] 0 (Cleanup.singleAsterisks [] w.finish) = Glyph.spell 0 cut ∧
    glyphs <:+: cut
  code : Glyph.pieces glyphs = w.kept.toList
  page : page = Glyph.print glyphs ++ ['\n']

structure Shaped (w : Writer) (page : List Char) : Prop where
  trimmed : ∃ text, page = text ++ ['\n'] ∧ Trimmed text
  spaced : ∃ glyphs, Prints w page glyphs ∧ ∀ front back, page = front ++ (gap ++ back) →
    Glyph.InPiece (glyphs ++ [.plain '\n']) front back

theorem page_shaped (theme : Option String) (document : Document) (made : document.Made Solid) :
    Shaped (Writer.ofDocument theme document) (pageOf theme document) ∧
      (AllRegular Solid document → NameSolid theme → Only Solid (pageOf theme document)) := by
  obtain ⟨raw, cut, carried, squeezed, spelled, printed⟩ := page_spelled theme document made
  have thinned := squeezed_thinned raw cut squeezed
  have kept := (Writer.of_document_finish theme document).2
  have code : Glyph.pieces cut = blocksCode theme document :=
    (Glyph.thinned_pieces _ raw cut thinned).trans carried.own
  have braced : ∀ piece ∈ Glyph.pieces cut, Braced piece := code ▸ carried.braced
  obtain ⟨glyphs, part, same, trimmed⟩ := Glyph.trim_print cut braced
  have ends := trim_trimmed (Glyph.print cut)
  rw [trimmed] at printed ends
  have limited : ¬ gap.map .plain <:+: cut := by
    intro inside
    have run := Glyph.gap_spelled 0 cut inside
    rw [← spelled] at run
    exact Cleanup.limit_line_ends_gap 0 _ (by simpa using run)
  have spaced := gap_trimmed glyphs ends fun inside => limited (inside.trans part)
  have whole : Glyph.print (glyphs ++ [.plain '\n']) = pageOf theme document := by
    rw [Glyph.print_append, printed]
    rfl
  have braced' : ∀ piece ∈ Glyph.pieces (glyphs ++ [.plain '\n']), Braced piece := by
    rw [Glyph.pieces_append, same]
    simpa [Glyph.pieces] using braced
  refine ⟨⟨⟨_, printed, ends⟩, glyphs, ⟨⟨cut, spelled, part⟩, ?_, printed⟩, ?_⟩, ?_⟩
  · rw [same, code, kept]
  · intro front back run
    rw [← whole] at run
    exact Glyph.gap_in_piece _ front back braced' spaced run
  · intro regular themed
    have pieces := blocks_code_solid theme themed document made regular
    have clean : Glyph.Clean glyphs := fun c member =>
      Glyph.thinned_clean _ raw cut thinned carried.clean c (part.subset member)
    rw [← code, ← same] at pieces
    rw [printed, Markdown.only_append]
    exact ⟨print_solid glyphs clean pieces, by decide⟩

structure Conversion (options : Options) (source : String) : Prop where
  refused : ∀ fault, convert options source = .error fault ↔ Refused options source fault
  empty : ∀ page, convert options source = .ok page → (page = "" ↔ Text.allBlank source = true)
  shaped : ∀ page, convert options source = .ok page → Text.allBlank source = false →
    Shaped (Writer.ofDocument options.theme (Markdown.parse source)) page.toList
  solid : ∀ page, convert options source = .ok page →
    (∀ theme, options.theme = some theme → '\x00' ∉ theme.toList) → '\x00' ∉ page.toList

theorem convert_shaped (options : Options) (source : String) : Conversion options source where
  refused := convert_error options source
  empty page accepted := by
    obtain ⟨-, nothing, written⟩ := convert_ok options source page accepted
    refine ⟨fun same => ?_, nothing⟩
    by_contra something
    have printed := written (Bool.eq_false_iff.mpr something)
    rw [same, pageOf, Cleanup.run] at printed
    simp at printed
  shaped page accepted something := by
    obtain ⟨free, -, written⟩ := convert_ok options source page accepted
    rw [written something]
    exact (page_shaped options.theme _ (Markdown.parse_solid source free)).1
  solid page accepted themed := by
    obtain ⟨free, nothing, written⟩ := convert_ok options source page accepted
    by_cases blank : Text.allBlank source = true
    · simp [nothing blank]
    · rw [written (Bool.eq_false_iff.mpr blank)]
      have named : NameSolid options.theme := fun theme given c member same =>
        themed theme given (same ▸ member)
      have solid := (page_shaped options.theme _ (Markdown.parse_solid source free)).2
        (Markdown.parse_infos_solid source free) named
      exact fun member => solid '\x00' member rfl

example : convert {} "a\n\n\n\nb\n\n    x\n\n\n    y\n\n\n" =
    .ok "a\n\nb\n\n\x7bcode\x7d\nx\n\n\ny\n\x7bcode\x7d\n" := by decide +kernel

end MarkdownServer.Wiki
