import Mathlib.Data.List.ModifyLast
import MarkdownServer.Proofs.Wiki.Cleanup
import MarkdownServer.Proofs.Wiki.Shown
/- Pages of wiki markup. The code of a document stands on its page as it is, with the raw markup
   between the pieces, and all text that is shown stands there in order. -/
set_option autoImplicit false

namespace MarkdownServer.Wiki

open Markdown (Builder Document Line Only References Solid)
open Text (isBlank)

def weave : List (List Char) → List (List Char) → List Char
  | text :: texts, piece :: pieces => text ++ piece ++ weave texts pieces
  | texts, _ => texts.flatten

def trimEnds (texts : List (List Char)) : List (List Char) :=
  (texts.modifyHead (List.dropWhile isBlank)).modifyLast (Markdown.dropTrailing isBlank)

namespace Glyph

def texts : List Glyph → List (List Char)
  | [] => [[]]
  | .plain c :: rest => (texts rest).modifyHead (c :: ·)
  | .code _ :: rest => [] :: texts rest

theorem texts_cons (glyphs : List Glyph) : ∃ first rest, texts glyphs = first :: rest := by
  induction glyphs with
  | nil => exact ⟨_, _, rfl⟩
  | cons glyph glyphs ih =>
      cases glyph with
      | plain c =>
          obtain ⟨first, rest, same⟩ := ih
          exact ⟨c :: first, rest, by rw [texts, same]; rfl⟩
      | code piece => exact ⟨_, _, rfl⟩

theorem texts_length (glyphs : List Glyph) : (texts glyphs).length = (pieces glyphs).length + 1 := by
  induction glyphs with
  | nil => rfl
  | cons glyph glyphs ih => cases glyph <;> simp [texts, pieces, ih]

theorem print_weave (glyphs : List Glyph) : print glyphs = weave (texts glyphs) (pieces glyphs) := by
  induction glyphs with
  | nil => rfl
  | cons glyph glyphs ih =>
      cases glyph with
      | plain c =>
          obtain ⟨first, rest, same⟩ := texts_cons glyphs
          rw [print, ih, texts, pieces, same]
          cases pieces glyphs <;> simp [weave]
      | code piece => rw [print, ih, texts, pieces, weave, List.nil_append]

theorem spell_weave (n : Nat) (glyphs : List Glyph) : spell n glyphs =
    weave (texts glyphs) ((List.range' n (pieces glyphs).length).map Writer.placeholder) := by
  induction glyphs generalizing n with
  | nil => rfl
  | cons glyph glyphs ih =>
      cases glyph with
      | plain c =>
          obtain ⟨first, rest, same⟩ := texts_cons glyphs
          rw [spell, ih, texts, pieces, same]
          cases (List.range' n (pieces glyphs).length).map Writer.placeholder <;> simp [weave]
      | code piece =>
          rw [spell, ih, texts, pieces, List.length_cons, List.range'_succ, List.map_cons, weave,
            List.nil_append]

theorem texts_clean (glyphs : List Glyph) (clean : Clean glyphs) :
    ∀ text ∈ texts glyphs, Only Solid text := by
  induction glyphs with
  | nil => exact List.forall_mem_singleton.mpr Markdown.only_nil
  | cons glyph glyphs ih =>
      have others := ih fun c member => clean c (List.mem_cons_of_mem _ member)
      cases glyph with
      | plain c =>
          obtain ⟨first, rest, same⟩ := texts_cons glyphs
          rw [same] at others
          obtain ⟨own, others⟩ := List.forall_mem_cons.mp others
          rw [texts, same]
          exact List.forall_mem_cons.mpr
            ⟨(Markdown.only_cons _ _).mpr ⟨clean c List.mem_cons_self, own⟩, others⟩
      | code piece => exact List.forall_mem_cons.mpr ⟨Markdown.only_nil, others⟩

theorem texts_thinned (drops : Char → Prop) (glyphs glyphs' : List Glyph)
    (thinned : Thinned (Drops drops) glyphs glyphs') :
    List.Forall₂ (Thinned drops) (texts glyphs) (texts glyphs') := by
  induction thinned with
  | nil => exact .cons .nil .nil
  | keep glyph as bs rest ih =>
      cases glyph with
      | plain c =>
          obtain ⟨first, others, same⟩ := texts_cons as
          obtain ⟨first', others', same'⟩ := texts_cons bs
          rw [same, same'] at ih
          rw [texts, texts, same, same']
          cases ih with
          | cons own others => exact .cons (.keep c _ _ own) others
      | code piece => exact .cons .nil ih
  | drop glyph as bs gone rest ih =>
      cases glyph with
      | plain c =>
          obtain ⟨first, others, same⟩ := texts_cons as
          obtain ⟨first', others', same'⟩ := texts_cons bs
          rw [same, same'] at ih
          rw [texts, same, same']
          cases ih with
          | cons own others => exact .cons (.drop c _ _ gone own) others
      | code piece => cases gone

end Glyph

theorem drop_front (text piece more : List Char) (braced : Braced piece) :
    (text ++ piece ++ more).dropWhile isBlank = text.dropWhile isBlank ++ piece ++ more := by
  obtain ⟨piece', rfl⟩ := List.head?_eq_some_iff.mp braced.1
  simpa using drop_leading_to isBlank text (piece' ++ more) '\x7b' (by decide)

theorem drop_back (text piece more : List Char) (braced : Braced piece) :
    Markdown.dropTrailing isBlank (text ++ piece ++ more) =
      text ++ piece ++ Markdown.dropTrailing isBlank more := by
  obtain ⟨piece', rfl⟩ := List.getLast?_eq_some_iff.mp braced.2
  simpa using drop_trailing_to isBlank (text ++ piece') more '\x7d' (by decide)

theorem weave_front (texts pieces : List (List Char)) (count : texts.length = pieces.length + 1)
    (braced : ∀ piece ∈ pieces, Braced piece) :
    (weave texts pieces).dropWhile isBlank = weave (texts.modifyHead (List.dropWhile isBlank)) pieces := by
  cases pieces with
  | nil =>
      obtain ⟨text, rfl⟩ := List.length_eq_one_iff.mp count
      simp [weave]
  | cons piece pieces =>
      match texts with
      | text :: texts => exact drop_front text piece _ (braced piece List.mem_cons_self)

theorem weave_back (texts pieces : List (List Char)) (count : texts.length = pieces.length + 1)
    (braced : ∀ piece ∈ pieces, Braced piece) :
    Markdown.dropTrailing isBlank (weave texts pieces) =
      weave (texts.modifyLast (Markdown.dropTrailing isBlank)) pieces := by
  induction pieces generalizing texts with
  | nil =>
      obtain ⟨text, rfl⟩ := List.length_eq_one_iff.mp count
      have last := List.modifyLast_concat (Markdown.dropTrailing isBlank) text []
      rw [List.nil_append, List.nil_append] at last
      rw [last]
      simp [weave]
  | cons piece pieces ih =>
      match texts with
      | text :: texts =>
          obtain ⟨own, others⟩ := List.forall_mem_cons.mp braced
          have count' : texts.length = pieces.length + 1 := Nat.succ.inj count
          have last := List.modifyLast_append_of_right_ne_nil (Markdown.dropTrailing isBlank) [text] texts
            (List.ne_nil_of_length_eq_add_one count')
          rw [List.singleton_append, List.singleton_append] at last
          rw [last, weave, weave, drop_back text piece _ own, ih texts count' others]

theorem weave_trimmed (texts pieces : List (List Char)) (count : texts.length = pieces.length + 1)
    (braced : ∀ piece ∈ pieces, Braced piece) :
    Text.trimBlanks (weave texts pieces) = weave (trimEnds texts) pieces := by
  have count' : (texts.modifyHead (List.dropWhile isBlank)).length = pieces.length + 1 := by
    rwa [List.length_modifyHead]
  calc
    Text.trimBlanks (weave texts pieces) =
        Markdown.dropTrailing isBlank ((weave texts pieces).dropWhile isBlank) := rfl
    _ = Markdown.dropTrailing isBlank (weave (texts.modifyHead (List.dropWhile isBlank)) pieces) := by
        rw [weave_front texts pieces count braced]
    _ = weave (trimEnds texts) pieces := weave_back _ pieces count' braced

theorem visible_drop_while (text : List Char) :
    (text.dropWhile isBlank).filter isVisible = text.filter isVisible := by
  induction text with
  | nil => rfl
  | cons c text ih =>
      by_cases blank : isBlank c = true
      · have hidden : isVisible c = false := by simp [isVisible, blank]
        rw [List.dropWhile_cons_of_pos blank, List.filter_cons, hidden, if_neg (by decide), ih]
      · rw [List.dropWhile_cons_of_neg blank]

theorem visible_trimmed (text : List Char) :
    (Text.trimBlanks text).filter isVisible = text.filter isVisible := by
  rw [Text.trimBlanks, List.filter_reverse, visible_drop_while, List.filter_reverse, List.reverse_reverse,
    visible_drop_while]

theorem page_printed (theme : Option String) (document : Document) (raw cut : List Glyph)
    (carried : Carried 0 (Writer.ofDocument theme document).finish (blocksCode theme document)
      (document.events.flatMap payload) raw)
    (squeezed : Squeezed (Glyph.Drops Cleanup.Spare) raw cut)
    (passed : Cleanup.limitLineEnds [] 0
      (Cleanup.singleAsterisks [] (Writer.ofDocument theme document).finish) = Glyph.spell 0 cut) :
    pageOf theme document = Text.trimBlanks (Glyph.print cut) ++ ['\n'] := by
  have thinned := squeezed_thinned raw cut squeezed
  have pieces : (Writer.ofDocument theme document).kept.toList.drop 0 = Glyph.pieces cut := by
    rw [Glyph.thinned_pieces _ raw cut thinned, carried.own, ← (Writer.of_document_finish theme document).2]
    rfl
  have restored :=
    Cleanup.restore_spell _ [] 0 cut (Glyph.thinned_clean _ raw cut thinned carried.clean) pieces
  rw [pageOf, Cleanup.run, passed, restored]
  rfl

theorem page_spelled (theme : Option String) (document : Document) (made : document.Made Solid) :
    ∃ raw cut, Carried 0 (Writer.ofDocument theme document).finish (blocksCode theme document)
        (document.events.flatMap payload) raw ∧
      Squeezed (Glyph.Drops Cleanup.Spare) raw cut ∧
      Cleanup.limitLineEnds [] 0 (Cleanup.singleAsterisks [] (Writer.ofDocument theme document).finish) =
        Glyph.spell 0 cut ∧
      pageOf theme document = Text.trimBlanks (Glyph.print cut) ++ ['\n'] := by
  obtain ⟨raw, carried⟩ := blocks_carry theme ⟨none, [], false⟩ 0 document made
  rw [← (Writer.of_document_finish theme document).1] at carried
  have passed := Cleanup.passes_squeezed (Writer.ofDocument theme document).finish
  rw [← carried.spelled] at passed
  obtain ⟨cut, same, squeezed⟩ := Glyph.squeezed_spell 0 raw _ passed
  rw [carried.spelled] at same
  exact ⟨raw, cut, carried, squeezed, same, page_printed theme document raw cut carried squeezed same⟩

theorem page_glyphs (theme : Option String) (document : Document) (made : document.Made Solid) :
    ∃ raw cut, Carried 0 (Writer.ofDocument theme document).finish (blocksCode theme document)
        (document.events.flatMap payload) raw ∧
      Thinned (Glyph.Drops Cleanup.Spare) raw cut ∧
      pageOf theme document = Text.trimBlanks (Glyph.print cut) ++ ['\n'] := by
  obtain ⟨raw, cut, carried, squeezed, -, printed⟩ := page_spelled theme document made
  exact ⟨raw, cut, carried, squeezed_thinned raw cut squeezed, printed⟩

theorem convert_ok (options : Options) (source page : String) (accepted : convert options source = .ok page) :
    '\x00' ∉ source.toList ∧ (Text.allBlank source = true → page = "") ∧
      (Text.allBlank source = false → page.toList = pageOf options.theme (Markdown.parse source)) := by
  unfold convert at accepted
  cases sized : Rendering.checkSize source options.limit with
  | error fault =>
      rw [sized] at accepted
      cases accepted
  | ok _ =>
      rw [sized] at accepted
      by_cases nul : '\x00' ∈ source.toList
      · simp [nulOffset?, nul, bind, Except.bind, throw, throwThe, MonadExceptOf.throw] at accepted
      · refine ⟨nul, ?_⟩
        by_cases blank : Text.allBlank source = true
        · simp [nulOffset?, nul, blank, bind, Except.bind, pure, Except.pure] at accepted
          simp [blank, ← accepted]
        · simp [nulOffset?, nul, blank, bind, Except.bind, pure, Except.pure] at accepted
          simp [blank, ← accepted]

theorem convert_page (options : Options) (source : String)
    (sized : Rendering.checkSize source options.limit = .ok ()) (free : '\x00' ∉ source.toList)
    (something : Text.allBlank source = false) :
    convert options source = .ok (String.ofList (pageOf options.theme (Markdown.parse source))) := by
  unfold convert
  rw [sized]
  simp [nulOffset?, free, something, bind, Except.bind, pure, Except.pure]

/- Code stands on the page character for character and in order, and between the pieces is the raw
   markup without some asterisks, line ends and blanks at the two ends. -/
theorem convert_carries_code (options : Options) (source page : String)
    (accepted : convert options source = .ok page) :
    let document := Markdown.parse source
    let code := blocksCode options.theme document
    (Text.allBlank source = true → page = "") ∧
    (Text.allBlank source = false → ∃ raw cut : List (List Char), raw.length = code.length + 1 ∧
      (∀ text ∈ raw, Only Solid text) ∧
      (Writer.ofDocument options.theme document).finish =
        weave raw ((List.range code.length).map Writer.placeholder) ∧
      List.Forall₂ (Thinned Cleanup.Spare) raw cut ∧
      page.toList = weave (trimEnds cut) code ++ ['\n']) := by
  intro document code
  obtain ⟨free, nothing, written⟩ := convert_ok options source page accepted
  refine ⟨nothing, fun something => ?_⟩
  obtain ⟨raw, cut, carried, thinned, printed⟩ :=
    page_glyphs options.theme document (Markdown.parse_solid source free)
  have pieces : Glyph.pieces cut = code := (Glyph.thinned_pieces _ raw cut thinned).trans carried.own
  have count : (Glyph.texts cut).length = code.length + 1 := by rw [Glyph.texts_length, pieces]
  refine ⟨Glyph.texts raw, Glyph.texts cut, ?_, Glyph.texts_clean raw carried.clean, ?_,
    Glyph.texts_thinned _ raw cut thinned, ?_⟩
  · rw [Glyph.texts_length, carried.own]
  · rw [← carried.spelled, Glyph.spell_weave, carried.own, List.range_eq_range']
  · rw [written something, printed, Glyph.print_weave, pieces, weave_trimmed _ code count carried.braced]

theorem convert_carries_code_asterisks :
    convert {} "\\*\\*a `*`\\*\\* `x`2`y`\n" = .ok "*a \x7b\x7b*\x7d\x7d* \x7b\x7bx\x7d\x7d2\x7b\x7by\x7d\x7d\n" ∧
    ∃ raw cut : List (List Char), raw.length = 4 ∧ (∀ text ∈ raw, Only Solid text) ∧
      (Writer.ofDocument none (Markdown.parse "\\*\\*a `*`\\*\\* `x`2`y`\n")).finish =
        weave raw ((List.range 3).map Writer.placeholder) ∧
      List.Forall₂ (Thinned Cleanup.Spare) raw cut ∧
      "*a \x7b\x7b*\x7d\x7d* \x7b\x7bx\x7d\x7d2\x7b\x7by\x7d\x7d\n".toList =
        weave (trimEnds cut) [codeSpan ['*'], codeSpan ['x'], codeSpan ['y']] ++ ['\n'] := by
  have accepted : convert {} "\\*\\*a `*`\\*\\* `x`2`y`\n" =
      .ok "*a \x7b\x7b*\x7d\x7d* \x7b\x7bx\x7d\x7d2\x7b\x7by\x7d\x7d\n" := by decide +kernel
  have code : blocksCode none (Markdown.parse "\\*\\*a `*`\\*\\* `x`2`y`\n") =
      [codeSpan ['*'], codeSpan ['x'], codeSpan ['y']] := by decide +kernel
  have carried := convert_carries_code {} _ _ accepted
  have woven := carried.2 (by decide)
  rw [code] at woven
  exact ⟨accepted, woven⟩

theorem parse_definition : Markdown.parse "[a]: b" = [] := by
  have lines : Line.ofText "[a]: b".toList = [⟨"[a]: b".toList, .absent⟩] := by decide +kernel
  have label : Markdown.Definition.label [] [] "a]: b".toList [] = some (['a'], ": b".toList, []) := by
    change Markdown.Definition.label [] [] ['a', ']', ':', ' ', 'b'] [] = _
    rw [Markdown.Definition.label, Markdown.Definition.label]
    · rfl
    all_goals simp
  have definition : Markdown.Definition.read [] "[a]: b".toList [] = some ("a", ⟨"b", ""⟩, []) := by
    change (Markdown.Definition.label [] [] "a]: b".toList []).bind _ = _
    rw [label]
    decide +kernel
  have leaf : Builder.readLine {} none ⟨"[a]: b".toList, .absent⟩ [] =
      Builder.definitions {} (.start ⟨"[a]: b".toList, .absent⟩) none
        ⟨"[a]: b".toList, .absent⟩ [] := rfl
  have read : Builder.readLine {} none ⟨"[a]: b".toList, .absent⟩ [] =
      ({ references := ({} : References).insertIfNew "a" ⟨"b", ""⟩ }, 0) := by
    rw [leaf, Builder.definitions]
    simp only [Markdown.Cursor.start, Builder.frames, List.reverse_nil, definition]
    rfl
  have builder : Builder.readLines {} none [⟨"[a]: b".toList, .absent⟩] =
      { references := ({} : References).insertIfNew "a" ⟨"b", ""⟩ } := by
    rw [Builder.readLines, read]
    exact Builder.readLines.eq_def _ _ _
  rw [Markdown.parse, lines, builder]
  rfl

theorem convert_drops_and_adds :
    (convert {} "    \u00a0" = .ok "" ∧
      ∀ texts, texts.length = (blocksCode none (Markdown.parse "    \u00a0")).length + 1 →
        "".toList ≠ weave texts (blocksCode none (Markdown.parse "    \u00a0"))) ∧
    (convert {} "[a]: b" = .ok "\n" ∧
      ∀ texts : List (List Char),
        texts.flatten.Sublist (Writer.ofDocument none (Markdown.parse "[a]: b")).finish →
          "\n".toList ≠ weave texts (blocksCode none (Markdown.parse "[a]: b"))) := by
  refine ⟨⟨by decide +kernel, fun texts count same => ?_⟩, ?_, fun texts part same => ?_⟩
  · have code : blocksCode none (Markdown.parse "    \u00a0") =
        ["\x7bcode\x7d\n\u00a0\n\x7bcode\x7d".toList] := by
      decide +kernel
    rw [code] at same count
    match texts with
    | [text, more] => simp [weave] at same
  · rw [convert_page {} _ (by decide) (by decide) (by decide), parse_definition]
    decide +kernel
  · rw [parse_definition] at part same
    have empty : texts.flatten = [] := List.sublist_nil.mp part
    cases texts <;> simp_all [weave, blocksCode]

theorem convert_keeps_text (options : Options) (source page : String)
    (accepted : convert options source = .ok page) :
    (((Markdown.parse source).events.flatMap payload).filter isVisible).Sublist page.toList := by
  obtain ⟨free, _, written⟩ := convert_ok options source page accepted
  by_cases blank : Text.allBlank source = true
  · -- A blank source shows blanks only.
    have shown := blocks_shown (by decide) _ (Markdown.parse_blank source blank)
    have hidden : ((Markdown.parse source).events.flatMap payload).filter isVisible = [] := by
      refine List.filter_eq_nil_iff.mpr fun c member visible => ?_
      have own : isBlank c = true := shown c member
      simp [isVisible, own] at visible
    rw [hidden]
    exact List.nil_sublist _
  · obtain ⟨raw, cut, carried, thinned, printed⟩ :=
      page_glyphs options.theme _ (Markdown.parse_solid source free)
    have found := carried.found
    rw [Glyph.thinned_print raw cut thinned, ← visible_trimmed (Glyph.print cut)] at found
    rw [written (Bool.eq_false_iff.mpr blank), printed]
    exact (found.trans List.filter_sublist).trans (List.sublist_append_left _ _)

theorem convert_keeps_text_link :
    convert {} "- `a` *b* <http://c>\n" = .ok "* \x7b\x7ba\x7d\x7d _b_ [http://c]\n" ∧
      "abhttp://c".toList.Sublist "* \x7b\x7ba\x7d\x7d _b_ [http://c]\n".toList := by
  have accepted : convert {} "- `a` *b* <http://c>\n" =
      .ok "* \x7b\x7ba\x7d\x7d _b_ [http://c]\n" := by decide +kernel
  have shown : ((Markdown.parse "- `a` *b* <http://c>\n").events.flatMap payload).filter isVisible =
      "abhttp://c".toList := by decide +kernel
  refine ⟨accepted, ?_⟩
  rw [← shown]
  exact convert_keeps_text {} _ _ accepted

end MarkdownServer.Wiki
