import MarkdownServer.Proofs.Wiki.Bold
import MarkdownServer.Proofs.Wiki.Braces
import MarkdownServer.Proofs.Wiki.Shape
import MarkdownServer.Proofs.Wiki.Targets
/- What becomes of the targets of links and images on a page. The passes do not know them as such: they
   shorten a target where double asterisks in it are taken for bold text, and where it has two empty lines. -/
set_option autoImplicit false

namespace MarkdownServer.Wiki

open Markdown (Document Only Solid)
open Text (isBlank)

namespace Cleanup

theorem passes_around (front passage back : List Char) (d e : Char) (before : ¬ Spare d)
    (behind : ¬ Spare e) :
    ∃ front' passage' back',
      limitLineEnds [] 0 (singleAsterisks [] (front ++ d :: (passage ++ e :: back))) =
        front' ++ d :: (passage' ++ e :: back') ∧
      Squeezed Spare front front' ∧ Squeezed Spare passage passage' ∧ Squeezed Spare back back' ∧
      (passage' = passage ↔ Stays (front ++ [d]) passage (e :: back) ∧ ¬ gap <:+: passage) := by
  obtain ⟨star, feed⟩ := not_or.mp before
  obtain ⟨star', feed'⟩ := not_or.mp behind
  obtain ⟨front', passage', back', passed, first, own, last, same⟩ :=
    single_asterisks_around front passage back d e star star'
  have both (text text' : List Char) (squeezed : Squeezed (· = '*') text text') :
      Squeezed Spare text (limitLineEnds [] 0 text') :=
    squeezed_trans _ _ _ (squeezed_mono _ _ _ (fun _ => Or.inl) squeezed)
      (squeezed_mono _ _ _ (fun _ => Or.inr) (limit_line_ends_squeezed [] 0 _ fun positive =>
        absurd positive (Nat.lt_irrefl 0)))
  refine ⟨_, _, _, ?_, both _ _ first, both _ _ own, both _ _ last, ?_⟩
  · rw [passed, limit_line_ends_behind [] 0 _ _ d feed, limit_line_ends_behind [] 0 _ _ e feed']
  · rw [← same]
    constructor
    · intro whole
      -- Each pass takes away what it changes, so neither of them has changed anything.
      have shorter := (thinned_sublist _ _ (limit_line_ends_thinned passage')).length_le
      rw [whole] at shorter
      have kept : passage' = passage :=
        (thinned_sublist _ _ (squeezed_thinned _ _ own)).eq_of_length_le shorter
      rw [kept] at whole
      exact ⟨kept, (limit_line_ends_same passage).mp whole⟩
    · rintro ⟨rfl, spaced⟩
      exact (limit_line_ends_same passage').mpr spaced

theorem stays_single (front passage back : List Char) (d e : Char) (before : ¬ Spare d) (behind : ¬ Spare e)
    (single : ¬ ['*', '*'] <:+: passage) : Stays (front ++ [d]) passage (e :: back) := by
  obtain ⟨front', passage', back', -, -, own, -, same⟩ :=
    single_asterisks_around front passage back d e (not_or.mp before).1 (not_or.mp behind).1
  refine same.mp (squeezed_single _ _ ?_ own)
  rintro _ rfl
  exact single

end Cleanup

def Fixed (c : Char) : Prop := c ≠ '\x00' ∧ c.isDigit = false ∧ ¬ Cleanup.Spare c

instance : DecidablePred Fixed := fun c =>
  inferInstanceAs (Decidable (c ≠ '\x00' ∧ c.isDigit = false ∧ ¬ Cleanup.Spare c))

theorem fixed_outside (c : Char) (fixed : Fixed c) (m : Nat) : c ∉ Writer.placeholder m := by
  intro member
  obtain rfl | digit := Glyph.placeholder_made m c member
  · exact fixed.1 rfl
  · rw [fixed.2.1] at digit
    cases digit

theorem fixed_stays (c : Char) (fixed : Fixed c) : ¬ Glyph.Drops Cleanup.Spare (.plain c) := fixed.2.2

theorem Glyph.spell_solid (n : Nat) (glyphs : List Glyph) (text : List Char) (solid : Only Solid text)
    (spelled : spell n glyphs = text) : glyphs = text.map .plain := by
  induction glyphs generalizing text with
  | nil =>
      cases spelled
      rfl
  | cons glyph glyphs ih =>
      cases glyph with
      | plain c =>
          cases spelled
          exact congrArg (List.cons (.plain c)) (ih _ ((Markdown.only_cons _ _).mp solid).2 rfl)
      | code piece =>
          subst spelled
          exact absurd rfl (solid '\x00' (by simp [spell, Writer.placeholder]))

/- What is printed of some markup that has `n` pieces of code in front of it and some of its own: it is
   shortened by the passes, and its code is in place. -/
def Passed (n : Nat) (pieces : List (List Char)) (text printed : List Char) : Prop :=
  ∃ glyphs cut, Glyph.spell n glyphs = text ∧ Glyph.pieces glyphs = pieces ∧
    Squeezed (Glyph.Drops Cleanup.Spare) glyphs cut ∧ Glyph.print cut = printed

theorem passed_nil (n : Nat) : Passed n [] [] [] := ⟨[], [], rfl, rfl, .nil, rfl⟩

theorem passed_apart (n : Nat) (pieces : List (List Char)) (front back printed : List Char) (c : Char)
    (fixed : Fixed c) (passed : Passed n pieces (front ++ c :: back) printed) :
    ∃ first last left right, pieces = first ++ last ∧ printed = left ++ c :: right ∧
      Passed n first front left ∧ Passed (n + first.length) last back right := by
  obtain ⟨glyphs, cut, spelled, rfl, squeezed, rfl⟩ := passed
  obtain ⟨before, after, rfl, ahead, behind⟩ :=
    Glyph.spell_split n glyphs front back c (fixed_outside c fixed) spelled
  obtain ⟨left, right, rfl, first, last⟩ :=
    squeezed_apart before after cut (.plain c) (fixed_stays c fixed) squeezed
  refine ⟨Glyph.pieces before, Glyph.pieces after, Glyph.print left, Glyph.print right, ?_, ?_,
    ⟨before, left, ahead, rfl, first, rfl⟩, ⟨after, right, behind, rfl, last, rfl⟩⟩
  · exact Glyph.pieces_append before (.plain c :: after)
  · exact Glyph.print_append left (.plain c :: right)

theorem passed_solid (n : Nat) (pieces : List (List Char)) (text printed : List Char)
    (fixed : ∀ c ∈ text, Fixed c) (passed : Passed n pieces text printed) : pieces = [] ∧ printed = text := by
  obtain ⟨glyphs, cut, spelled, rfl, squeezed, rfl⟩ := passed
  cases Glyph.spell_solid n glyphs text (fun c member => (fixed c member).1) spelled
  have kept : ∀ glyph ∈ text.map Glyph.plain, ¬ Glyph.Drops Cleanup.Spare glyph := by
    intro glyph member
    obtain ⟨c, inside, rfl⟩ := List.mem_map.mp member
    exact fixed_stays c (fixed c inside)
  rw [squeezed_kept _ cut kept squeezed, Glyph.print_plain]
  exact ⟨Glyph.pieces_plain text, rfl⟩

theorem squeezed_plain (text text' : List Char) (squeezed : Squeezed Cleanup.Spare text text') :
    Squeezed (Glyph.Drops Cleanup.Spare) (text.map .plain) (text'.map .plain) := by
  induction squeezed with
  | nil => exact .nil
  | keep c text text' rest ih => exact .keep _ _ _ ih
  | drop c text text' gone next rest ih =>
      refine .drop _ _ _ gone ?_ ih
      rw [List.head?_map, next]
      rfl

theorem page_around (theme : Option String) (document : Document) (made : document.Made Solid)
    (front url back : List Char) (d e : Char) (before : Fixed d) (behind : Fixed e) (solid : Only Solid url)
    (whole : (Writer.ofDocument theme document).finish = front ++ d :: (url ++ e :: back)) :
    ∃ first last left url' right,
      (Writer.ofDocument theme document).kept.toList = first ++ last ∧
      Passed 0 first front left ∧ Passed first.length last back right ∧
      pageOf theme document = Text.trimBlanks (left ++ d :: (url' ++ e :: right)) ++ ['\n'] ∧
      Squeezed Cleanup.Spare url url' ∧
      (url' = url ↔ Cleanup.Stays (front ++ [d]) url (e :: back) ∧ ¬ gap <:+: url) ∧
      (¬ ['*', '*'] <:+: url → ¬ gap <:+: url → url' = url) := by
  obtain ⟨raw, -, carried, -, -, -⟩ := page_spelled theme document made
  have spelled := carried.spelled
  rw [whole] at spelled
  obtain ⟨ahead, others, rfl, spelledFront, rest⟩ :=
    Glyph.spell_split 0 raw front _ d (fixed_outside d before) spelled
  obtain ⟨middle, after, rfl, spelledUrl, spelledBack⟩ :=
    Glyph.spell_split _ others url back e (fixed_outside e behind) rest
  cases Glyph.spell_solid _ middle url solid spelledUrl
  obtain ⟨front', url', back', passed, first, own, last, same⟩ :=
    Cleanup.passes_around front url back d e before.2.2 behind.2.2
  rw [← spelledFront] at first
  rw [← spelledBack] at last
  obtain ⟨left, rfl, aheadCut⟩ := Glyph.squeezed_spell 0 ahead front' first
  obtain ⟨right, rfl, afterCut⟩ := Glyph.squeezed_spell _ after back' last
  have squeezed := squeezed_join _ _ _ _ (.plain d) aheadCut
    (squeezed_join _ _ _ _ (.plain e) (squeezed_plain url url' own) afterCut)
  have pieces := Glyph.thinned_pieces _ _ _ (squeezed_thinned _ _ aheadCut)
  have printed := page_printed theme document _ _ carried squeezed (by
    rw [whole, passed, Glyph.spell_append, Glyph.spell, Glyph.spell_append, Glyph.spell, Glyph.spell_plain,
      pieces, Glyph.pieces_plain, Glyph.pieces_plain])
  refine ⟨Glyph.pieces ahead, Glyph.pieces after, Glyph.print left, url', Glyph.print right, ?_,
    ⟨ahead, left, spelledFront, rfl, aheadCut, rfl⟩, ⟨after, right, ?_, rfl, afterCut, rfl⟩, ?_, own, same,
    fun single spaced => same.mpr ⟨Cleanup.stays_single _ _ _ d e before.2.2 behind.2.2 single, spaced⟩⟩
  · rw [(Writer.of_document_finish theme document).2, ← carried.own]
    simp [Glyph.pieces_append, Glyph.pieces, Glyph.pieces_plain]
  · simpa [Glyph.pieces_plain] using spelledBack
  · rw [printed, Glyph.print_append, Glyph.print, Glyph.print_append, Glyph.print, Glyph.print_plain]

def targetOpening (image : Bool) (label : Option (List Char)) : List Char :=
  match image, label with
  | false, none => ['[']
  | false, some text => '[' :: text ++ ['|']
  | true, _ => ['!']

def targetClosing (image : Bool) (label : Option (List Char)) : List Char :=
  match image, label with
  | false, _ => [']']
  | true, none => ['!']
  | true, some text => "|alt=".toList ++ text ++ ['!']

theorem target_markup_parts (image : Bool) (label : Option (List Char)) (url : List Char) :
    targetMarkup image label url = targetOpening image label ++ url ++ targetClosing image label := by
  cases image <;> cases label <;> simp [targetMarkup, targetOpening, targetClosing]

def TargetPlace.after (t : TargetPlace) (raw : List Char) : List Char :=
  raw.drop (t.before ++ t.markup).length

theorem target_after (t : TargetPlace) (raw after : List Char) (whole : raw = t.before ++ t.markup ++ after) :
    t.after raw = after := by
  rw [whole]
  exact List.drop_left

structure TargetPlace.Placed (t : TargetPlace) (w : Writer) (page front : List Char)
    (label : Option (List Char)) (url back : List Char) : Prop where
  stands : w.finish = t.before ++ t.markup ++ t.after w.finish
  page : page = front ++ targetMarkup t.image label url ++ back
  labelled : label.isSome = t.label.isSome
  passed : ∃ first own last left right, w.kept.toList = first ++ own ++ last ∧
    Passed 0 first t.before left ∧ front = left.dropWhile isBlank ∧
    Passed first.length own (t.label.getD []) (label.getD []) ∧
    Passed (first ++ own).length last (t.after w.finish) right ∧
    back = Markdown.dropTrailing isBlank right ++ ['\n']
  squeezed : Squeezed Cleanup.Spare t.url url
  same : url = t.url ↔ Cleanup.Stays (t.before ++ targetOpening t.image t.label) t.url
    (targetClosing t.image t.label ++ t.after w.finish) ∧ ¬ gap <:+: t.url
  plain : ¬ ['*', '*'] <:+: t.url → ¬ gap <:+: t.url → url = t.url

section
variable (theme : Option String) (document : Document) (made : document.Made Solid)
include made

theorem bare_placed (before after url : List Char) (image : Bool) (c d : Char) (solid : Only Solid url)
    (fixed : Fixed c ∧ isBlank c = false) (fixed' : Fixed d ∧ isBlank d = false)
    (opening : targetOpening image none = [c]) (closing : targetClosing image none = [d])
    (whole : (Writer.ofDocument theme document).finish = before ++ targetMarkup image none url ++ after) :
    ∃ front label url' back, TargetPlace.Placed ⟨before, image, none, url⟩ (Writer.ofDocument theme document)
      (pageOf theme document) front label url' back := by
  have parts (url : List Char) : targetMarkup image none url = c :: (url ++ [d]) := by
    rw [target_markup_parts, opening, closing]
    simp
  have after' := target_after ⟨before, image, none, url⟩ _ after whole
  obtain ⟨first, last, left, url', right, kept, ahead, behind, printed, squeezed, same, plain⟩ :=
    page_around theme document made before url after c d fixed.1 fixed'.1 solid (by
      rw [whole, parts]
      simp)
  refine ⟨left.dropWhile isBlank, none, url', Markdown.dropTrailing isBlank right ++ ['\n'], ?_⟩
  constructor
  case stands => exact after'.symm ▸ whole
  case page =>
    rw [printed, trim_between left url' right c d fixed.2 fixed'.2, parts]
    simp
  case labelled => rfl
  case passed =>
    rw [after']
    exact ⟨first, [], last, left, right, by simpa using kept, ahead, rfl, passed_nil _,
      by simpa using behind, rfl⟩
  case squeezed => exact squeezed
  case same =>
    rw [after', opening, closing]
    exact same
  case plain => exact plain

theorem link_placed (before after text url : List Char) (solid : Only Solid url)
    (whole : (Writer.ofDocument theme document).finish =
      before ++ targetMarkup false (some text) url ++ after) :
    ∃ front label url' back, TargetPlace.Placed ⟨before, false, some text, url⟩
      (Writer.ofDocument theme document) (pageOf theme document) front label url' back := by
  have after' := target_after ⟨before, false, some text, url⟩ _ after whole
  obtain ⟨front, last, left, url', right, kept, ahead, behind, printed, squeezed, same, plain⟩ :=
    page_around theme document made (before ++ '[' :: text) url after '|' ']' (by decide) (by decide) solid
      (by rw [whole]; simp [targetMarkup])
  obtain ⟨first, own, left, label, rfl, rfl, outer, inner⟩ :=
    passed_apart 0 front before text left '[' (by decide) ahead
  rw [Nat.zero_add] at inner
  refine ⟨left.dropWhile isBlank, some label, url', Markdown.dropTrailing isBlank right ++ ['\n'], ?_⟩
  constructor
  case stands => exact after'.symm ▸ whole
  case page =>
    have trimmed := trim_between left (label ++ '|' :: url') right '[' ']' (by decide) (by decide)
    rw [printed]
    simp [targetMarkup] at trimmed ⊢
    rw [trimmed]
    simp
  case labelled => rfl
  case passed =>
    rw [after']
    exact ⟨first, own, last, left, right, kept, outer, rfl, inner, behind, rfl⟩
  case squeezed => exact squeezed
  case same =>
    rw [after']
    simpa [targetOpening, targetClosing] using same
  case plain => exact plain

theorem image_placed (before after text url : List Char) (solid : Only Solid url)
    (whole : (Writer.ofDocument theme document).finish =
      before ++ targetMarkup true (some text) url ++ after) :
    ∃ front label url' back, TargetPlace.Placed ⟨before, true, some text, url⟩
      (Writer.ofDocument theme document) (pageOf theme document) front label url' back := by
  have after' := target_after ⟨before, true, some text, url⟩ _ after whole
  obtain ⟨first, back, left, url', behind, kept, ahead, passed, printed, squeezed, same, plain⟩ :=
    page_around theme document made before url ("alt=".toList ++ text ++ '!' :: after) '!' '|' (by decide)
      (by decide) solid (by
        rw [whole]
        simp [targetMarkup])
  obtain ⟨named, last, alt, right, rfl, rfl, inner, outer⟩ :=
    passed_apart _ back ("alt=".toList ++ text) after behind '!' (by decide) passed
  obtain ⟨name, own, word, label, rfl, rfl, spelled, described⟩ :=
    passed_apart _ named "alt".toList text alt '=' (by decide) inner
  have stays : ∀ c ∈ "alt".toList, Fixed c := by
    have all : "alt".toList.all (fun c => decide (Fixed c)) = true := by decide
    simpa using all
  obtain ⟨rfl, rfl⟩ := passed_solid _ name "alt".toList word stays spelled
  refine ⟨left.dropWhile isBlank, some label, url', Markdown.dropTrailing isBlank right ++ ['\n'], ?_⟩
  constructor
  case stands => exact after'.symm ▸ whole
  case page =>
    have trimmed := trim_between left (url' ++ "|alt=".toList ++ label) right '!' '!' (by decide) (by decide)
    rw [printed]
    simp [targetMarkup] at trimmed ⊢
    rw [trimmed]
    simp
  case labelled => rfl
  case passed =>
    rw [after']
    exact ⟨first, own, last, left, right, by simpa using kept, ahead, rfl, by simpa using described,
      by simpa using outer, rfl⟩
  case squeezed => exact squeezed
  case same =>
    rw [after']
    simpa [targetOpening, targetClosing] using same
  case plain => exact plain

theorem target_placed (t : TargetPlace) (solid : Only Solid t.url)
    (member : t ∈ documentTargets theme document) :
    ∃ front label url back,
      t.Placed (Writer.ofDocument theme document) (pageOf theme document) front label url back := by
  obtain ⟨after, whole⟩ := target_starts t _ ((document_targets_stand theme document).stand t member)
  obtain ⟨before, image, label, url⟩ := t
  match image, label with
  | false, none =>
      exact bare_placed theme document made before after url false '[' ']' solid (by decide) (by decide)
        rfl rfl whole.symm
  | false, some text => exact link_placed theme document made before after text url solid whole.symm
  | true, none =>
      exact bare_placed theme document made before after url true '!' '!' solid (by decide) (by decide)
        rfl rfl whole.symm
  | true, some text => exact image_placed theme document made before after text url solid whole.symm

end

/- Every link and every image of a document stands on its page, each behind the start of the one that is
   read before it. -/
structure TargetsPlaced (options : Options) (source page : String) : Prop where
  all : (documentTargets options.theme (Markdown.parse source)).map TargetPlace.lead =
    (Markdown.parse source).events.filterMap target?
  apart : (documentTargets options.theme (Markdown.parse source)).Pairwise fun t u =>
    t.before.length < u.before.length
  placed : ∀ t ∈ documentTargets options.theme (Markdown.parse source), ∃ front label url back,
    t.Placed (Writer.ofDocument options.theme (Markdown.parse source)) page.toList front label url back

theorem convert_places_targets (options : Options) (source page : String)
    (accepted : convert options source = .ok page) : TargetsPlaced options source page := by
  obtain ⟨free, -, written⟩ := convert_ok options source page accepted
  have solid := Markdown.parse_solid source free
  have led := blocks_led options.theme ⟨none, [], false⟩ 0 _ solid
  refine ⟨led.all, (document_targets_stand options.theme _).apart, fun t member => ?_⟩
  by_cases blank : Text.allBlank source = true
  · -- A blank source has no mark that a link is read from.
    have marked := (blocks_led options.theme ⟨none, [], false⟩ 0 _ (Markdown.parse_blank source blank)).marked
      (List.ne_nil_of_mem member)
    exact absurd marked (by decide)
  · rw [written (Bool.eq_false_iff.mpr blank)]
    exact target_placed options.theme _ solid t (led.only t member) member

theorem convert_places_targets_asterisks :
    convert {} "\\*\\*b\\*\\* ![`c`](w*/) [t](u*v)" =
      .ok "*b* !w*/|alt=\x7b\x7bc\x7d\x7d! [t|u*v]\n" ∧
    (Markdown.parse "\\*\\*b\\*\\* ![`c`](w*/) [t](u*v)").events.filterMap target? =
      [(true, "w*/".toList), (false, "u*v".toList)] ∧
    ∀ t ∈ documentTargets none (Markdown.parse "\\*\\*b\\*\\* ![`c`](w*/) [t](u*v)"),
      ∃ front label back, "*b* !w*/|alt=\x7b\x7bc\x7d\x7d! [t|u*v]\n".toList =
        front ++ targetMarkup t.image label t.url ++ back := by
  have accepted : convert {} "\\*\\*b\\*\\* ![`c`](w*/) [t](u*v)" =
      .ok "*b* !w*/|alt=\x7b\x7bc\x7d\x7d! [t|u*v]\n" := by decide +kernel
  have plain : ∀ t ∈ documentTargets none (Markdown.parse "\\*\\*b\\*\\* ![`c`](w*/) [t](u*v)"),
      ¬ ['*', '*'] <:+: t.url ∧ ¬ gap <:+: t.url := by decide +kernel
  have targets := convert_places_targets {} _ _ accepted
  refine ⟨accepted, by decide +kernel, fun t member => ?_⟩
  obtain ⟨front, label, url, back, placed⟩ := targets.placed t member
  have own := plain t member
  rw [← placed.plain own.1 own.2]
  exact ⟨front, label, back, placed.page⟩

theorem starred_targets_shortened :
    ((Markdown.parse "a [b](http://x/**y**)").events.filterMap target? =
        [(false, "http://x/**y**".toList)] ∧
      convert {} "a [b](http://x/**y**)" = .ok "a [b|http://x/*y*]\n" ∧
      ¬ "http://x/**y**".toList <:+: "a [b|http://x/*y*]\n".toList) ∧
    (convert {} "a [b](x**y)" = .ok "a [b|x**y]\n" ∧
      convert {} "a [b](x**y) [c](z**w)" = .ok "a [b|x*y] [c|z*w]\n") := by
  refine ⟨⟨?_, ?_, ?_⟩, ?_, ?_⟩
  · decide +kernel
  · decide +kernel
  · decide +kernel
  · decide +kernel
  · decide +kernel

end MarkdownServer.Wiki
