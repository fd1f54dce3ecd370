import Mathlib.Data.List.DropRight
import MarkdownServer.Proofs.Markdown.Provenance.Kinds
import MarkdownServer.Markdown.Source
import MarkdownServer.Wiki.Writer
/- Raw markup as a sequence of characters and pieces of code. Each piece stands in the markup as one
   placeholder, and no NUL stands anywhere else. -/
set_option autoImplicit false

namespace MarkdownServer.Wiki

open Markdown (Only Solid)

inductive Glyph where
  | plain (c : Char)
  | code (piece : List Char)

namespace Glyph

def spell (n : Nat) : List Glyph → List Char
  | [] => []
  | .plain c :: rest => c :: spell n rest
  | .code _ :: rest => Writer.placeholder n ++ spell (n + 1) rest

def print : List Glyph → List Char
  | [] => []
  | .plain c :: rest => c :: print rest
  | .code piece :: rest => piece ++ print rest

def pieces : List Glyph → List (List Char)
  | [] => []
  | .plain _ :: rest => pieces rest
  | .code piece :: rest => piece :: pieces rest

def Clean (glyphs : List Glyph) : Prop := ∀ c, .plain c ∈ glyphs → Solid c

theorem spell_append (n : Nat) (glyphs more : List Glyph) :
    spell n (glyphs ++ more) = spell n glyphs ++ spell (n + (pieces glyphs).length) more := by
  induction glyphs generalizing n with
  | nil => rfl
  | cons glyph glyphs ih =>
      cases glyph with
      | plain c => simp [spell, pieces, ih]
      | code piece => simp [spell, pieces, ih, Nat.add_assoc, Nat.add_comm 1]

theorem print_append (glyphs more : List Glyph) : print (glyphs ++ more) = print glyphs ++ print more := by
  induction glyphs with
  | nil => rfl
  | cons glyph glyphs ih => cases glyph <;> simp [print, ih]

theorem pieces_append (glyphs more : List Glyph) :
    pieces (glyphs ++ more) = pieces glyphs ++ pieces more := by
  induction glyphs with
  | nil => rfl
  | cons glyph glyphs ih => cases glyph <;> simp [pieces, ih]

theorem clean_append (glyphs more : List Glyph) (first : Clean glyphs) (second : Clean more) :
    Clean (glyphs ++ more) := by
  intro c member
  obtain inside | inside := List.mem_append.mp member
  · exact first c inside
  · exact second c inside

theorem spell_plain (n : Nat) (text : List Char) : spell n (text.map .plain) = text := by
  induction text with
  | nil => rfl
  | cons c text ih => simp [spell, ih]

theorem print_plain (text : List Char) : print (text.map .plain) = text := by
  induction text with
  | nil => rfl
  | cons c text ih => simp [print, ih]

theorem pieces_plain (text : List Char) : pieces (text.map .plain) = [] := by
  induction text with
  | nil => rfl
  | cons c text ih => exact ih

theorem spell_nil (n : Nat) (glyphs : List Glyph) (empty : spell n glyphs = []) : glyphs = [] := by
  cases glyphs with
  | nil => rfl
  | cons glyph glyphs => cases glyph <;> simp [spell, Writer.placeholder] at empty

end Glyph

def isVisible (c : Char) : Bool := !Text.isBlank c && c != '*'

@[simp]
theorem line_end_hidden : isVisible '\n' = false := by decide

def Braced (piece : List Char) : Prop := piece.head? = some '\x7b' ∧ piece.getLast? = some '\x7d'

/- The markup spells glyphs that have just these pieces of code, and among which all that is shown is
   found again. -/
structure Carried (n : Nat) (text : List Char) (pieces : List (List Char)) (shown : List Char)
    (glyphs : List Glyph) : Prop where
  spelled : Glyph.spell n glyphs = text
  own : Glyph.pieces glyphs = pieces
  clean : Glyph.Clean glyphs
  braced : ∀ piece ∈ pieces, Braced piece
  found : (shown.filter isVisible).Sublist ((Glyph.print glyphs).filter isVisible)

def Carries (n : Nat) (text : List Char) (pieces : List (List Char)) (shown : List Char) : Prop :=
  ∃ glyphs, Carried n text pieces shown glyphs

theorem carries_plain (n : Nat) (text shown : List Char) (solid : Only Solid text)
    (found : (shown.filter isVisible).Sublist (text.filter isVisible)) : Carries n text [] shown := by
  refine ⟨text.map .plain, Glyph.spell_plain n text, Glyph.pieces_plain text, ?_, nofun, ?_⟩
  · intro c member
    obtain ⟨d, inside, same⟩ := List.mem_map.mp member
    cases same
    exact solid c inside
  · rwa [Glyph.print_plain]

theorem carries_mark (n : Nat) (text : List Char) (solid : Only Solid text) : Carries n text [] [] :=
  carries_plain n text [] solid (List.nil_sublist _)

theorem carries_own (n : Nat) (text : List Char) (solid : Only Solid text) : Carries n text [] text :=
  carries_plain n text text solid (List.Sublist.refl _)

theorem carries_code (n : Nat) (piece shown : List Char) (braced : Braced piece)
    (found : (shown.filter isVisible).Sublist (piece.filter isVisible)) :
    Carries n (Writer.placeholder n) [piece] shown := by
  refine ⟨[.code piece], ?_, rfl, ?_, List.forall_mem_singleton.mpr braced, ?_⟩
  · simp [Glyph.spell]
  · intro c member
    cases List.mem_singleton.mp member
  · simpa [Glyph.print] using found

theorem carries_append (n : Nat) (text more : List Char) (pieces others : List (List Char))
    (shown further : List Char) (first : Carries n text pieces shown)
    (second : Carries (n + pieces.length) more others further) :
    Carries n (text ++ more) (pieces ++ others) (shown ++ further) := by
  obtain ⟨glyphs, spelled, own, clean, braced, found⟩ := first
  obtain ⟨glyphs', spelled', own', clean', braced', found'⟩ := second
  refine ⟨glyphs ++ glyphs', ?_, ?_, Glyph.clean_append _ _ clean clean',
    List.forall_mem_append.mpr ⟨braced, braced'⟩, ?_⟩
  · rw [Glyph.spell_append, own, spelled, spelled']
  · rw [Glyph.pieces_append, own, own']
  · rw [Glyph.print_append, List.filter_append, List.filter_append]
    exact found.append found'

theorem carries_opened (n : Nat) (front text : List Char) (pieces : List (List Char))
    (shown : List Char) (opening : Only Solid front) (inside : Carries n text pieces shown) :
    Carries n (front ++ text) pieces shown :=
  carries_append n front text [] pieces [] shown (carries_mark n front opening) inside

theorem carries_closed (n : Nat) (text back : List Char) (pieces : List (List Char))
    (shown : List Char) (closing : Only Solid back) (inside : Carries n text pieces shown) :
    Carries n (text ++ back) pieces shown := by
  simpa using carries_append n text back pieces [] shown [] inside (carries_mark _ back closing)

theorem carries_enclosed (n : Nat) (front text back : List Char) (pieces : List (List Char))
    (shown : List Char) (opening : Only Solid front) (closing : Only Solid back)
    (inside : Carries n text pieces shown) : Carries n (front ++ text ++ back) pieces shown :=
  carries_closed n _ back pieces shown closing (carries_opened n front text pieces shown opening inside)

theorem carries_empty (n : Nat) (pieces : List (List Char)) (shown : List Char)
    (carried : Carries n [] pieces shown) : pieces = [] ∧ shown.filter isVisible = [] := by
  obtain ⟨glyphs, spelled, own, clean, braced, found⟩ := carried
  cases Glyph.spell_nil n glyphs spelled
  exact ⟨own.symm, List.sublist_nil.mp found⟩

theorem drop_trailing_append (drops : Char → Bool) (text : List Char) (c : Char) :
    Markdown.dropTrailing drops (text ++ [c]) =
      if drops c then Markdown.dropTrailing drops text else text ++ [c] :=
  List.rdropWhile_concat drops text c

theorem drop_leading_to (drops : Char → Bool) (front more : List Char) (c : Char) (stays : drops c = false) :
    (front ++ c :: more).dropWhile drops = front.dropWhile drops ++ c :: more := by
  induction front with
  | nil => simp [stays]
  | cons d front ih =>
      by_cases gone : drops d = true
      · simpa [gone] using ih
      · simp [gone]

theorem drop_trailing_to (drops : Char → Bool) (front more : List Char) (c : Char) (stays : drops c = false) :
    Markdown.dropTrailing drops (front ++ c :: more) = front ++ c :: Markdown.dropTrailing drops more := by
  have reversed := drop_leading_to drops more.reverse front.reverse c stays
  simp [Markdown.dropTrailing, reversed]

theorem carries_trimmed (n : Nat) (text : List Char) (pieces : List (List Char)) (shown : List Char)
    (carried : Carries n text pieces shown) :
    Carries n (Markdown.dropTrailing (· = '\n') text) pieces shown := by
  obtain ⟨glyphs, spelled, own, clean, braced, found⟩ := carried
  induction glyphs using List.reverseRecOn generalizing text with
  | nil =>
      cases spelled
      exact ⟨[], rfl, own, clean, braced, found⟩
  | append_singleton glyphs glyph ih =>
      cases glyph with
      | plain c =>
          rw [Glyph.spell_append] at spelled
          cases spelled
          rw [Glyph.spell, Glyph.spell, drop_trailing_append]
          by_cases feed : c = '\n'
          · rw [if_pos (by simpa using feed)]
            refine ih _ rfl ?_ (fun d member => clean d (List.mem_append_left _ member)) ?_
            · rwa [Glyph.pieces_append, Glyph.pieces, Glyph.pieces, List.append_nil] at own
            · rw [Glyph.print_append, List.filter_append, feed] at found
              simpa [Glyph.print] using found
          · rw [if_neg (by simpa using feed)]
            exact ⟨glyphs ++ [.plain c], Glyph.spell_append _ _ _, own, clean, braced, found⟩
      | code piece =>
          have spelled' := spelled
          rw [Glyph.spell_append, Glyph.spell, Glyph.spell, List.append_nil, Writer.placeholder,
            ← List.append_assoc] at spelled'
          rw [← spelled', drop_trailing_append, if_neg (by decide), spelled']
          exact ⟨glyphs ++ [.code piece], spelled, own, clean, braced, found⟩

end MarkdownServer.Wiki
