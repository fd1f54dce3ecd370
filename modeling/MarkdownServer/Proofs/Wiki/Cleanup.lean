import Mathlib.Data.List.DropRight
import MarkdownServer.Wiki.Cleanup
import MarkdownServer.Proofs.Wiki.Glyphs
/- What the passes over raw markup do to its glyphs. They leave out asterisks and line ends between
   the pieces of code, put every piece back as it is, and trim blanks at the two ends. -/
set_option autoImplicit false

namespace MarkdownServer.Wiki

open Markdown (Only Solid)

inductive Thinned {α : Type} (drops : α → Prop) : List α → List α → Prop where
  | nil : Thinned drops [] []
  | keep (a : α) (as bs : List α) (rest : Thinned drops as bs) : Thinned drops (a :: as) (a :: bs)
  | drop (a : α) (as bs : List α) (gone : drops a) (rest : Thinned drops as bs) :
      Thinned drops (a :: as) bs

section
variable {α : Type} {drops : α → Prop}

theorem thinned_trans (as bs cs : List α) (first : Thinned drops as bs) (second : Thinned drops bs cs) :
    Thinned drops as cs := by
  induction first generalizing cs with
  | nil => exact second
  | keep a as bs rest ih =>
      cases second with
      | keep _ _ cs rest' => exact .keep a as cs (ih cs rest')
      | drop _ _ _ gone rest' => exact .drop a as cs gone (ih cs rest')
  | drop a as bs gone rest ih => exact .drop a as cs gone (ih cs second)

theorem thinned_sublist (as bs : List α) (thinned : Thinned drops as bs) : bs.Sublist as := by
  induction thinned with
  | nil => exact List.Sublist.refl _
  | keep a as bs rest ih => exact ih.cons_cons a
  | drop a as bs gone rest ih => exact ih.cons a

theorem thinned_append (front back bs : List α) (thinned : Thinned drops (front ++ back) bs) :
    ∃ front' back', bs = front' ++ back' ∧ Thinned drops front front' ∧ Thinned drops back back' := by
  induction front generalizing bs with
  | nil => exact ⟨[], bs, rfl, .nil, thinned⟩
  | cons a front ih =>
      cases thinned with
      | keep _ _ bs rest =>
          obtain ⟨front', back', rfl, first, second⟩ := ih bs rest
          exact ⟨a :: front', back', rfl, .keep a _ _ first, second⟩
      | drop _ _ _ gone rest =>
          obtain ⟨front', back', rfl, first, second⟩ := ih bs rest
          exact ⟨front', back', rfl, .drop a _ _ gone first, second⟩

theorem thinned_mono (more : α → Prop) (as bs : List α) (wider : ∀ a, drops a → more a)
    (thinned : Thinned drops as bs) : Thinned more as bs := by
  induction thinned with
  | nil => exact .nil
  | keep a as bs rest ih => exact .keep a as bs ih
  | drop a as bs gone rest ih => exact .drop a as bs (wider a gone) ih

end

-- What goes has an equal element right behind it that stays, so no two others come together.
inductive Squeezed {α : Type} (drops : α → Prop) : List α → List α → Prop where
  | nil : Squeezed drops [] []
  | keep (a : α) (as bs : List α) (rest : Squeezed drops as bs) : Squeezed drops (a :: as) (a :: bs)
  | drop (a : α) (as bs : List α) (gone : drops a) (next : bs.head? = some a)
      (rest : Squeezed drops as bs) : Squeezed drops (a :: as) bs

section
variable {α : Type} {drops : α → Prop}

theorem squeezed_thinned (as bs : List α) (squeezed : Squeezed drops as bs) : Thinned drops as bs := by
  induction squeezed with
  | nil => exact .nil
  | keep a as bs rest ih => exact .keep a as bs ih
  | drop a as bs gone next rest ih => exact .drop a as bs gone ih

theorem squeezed_prepend (front as bs : List α) (squeezed : Squeezed drops as bs) :
    Squeezed drops (front ++ as) (front ++ bs) := by
  induction front with
  | nil => exact squeezed
  | cons a front ih => exact .keep a _ _ ih

theorem squeezed_refl (as : List α) : Squeezed drops as as := by
  simpa using squeezed_prepend as [] [] .nil

theorem squeezed_head (as bs : List α) (squeezed : Squeezed drops as bs) : bs.head? = as.head? := by
  cases squeezed with
  | nil => rfl
  | keep a as bs rest => rfl
  | drop a as bs gone next rest => exact next

theorem squeezed_trans (as bs cs : List α) (first : Squeezed drops as bs) (second : Squeezed drops bs cs) :
    Squeezed drops as cs := by
  induction first generalizing cs with
  | nil => exact second
  | keep a as bs rest ih =>
      cases second with
      | keep _ _ cs rest' => exact .keep a as cs (ih cs rest')
      | drop _ _ _ gone next rest' => exact .drop a as cs gone next (ih cs rest')
  | drop a as bs gone next rest ih =>
      exact .drop a as cs gone ((squeezed_head bs cs second).trans next) (ih cs second)

theorem squeezed_mono (more : α → Prop) (as bs : List α) (wider : ∀ a, drops a → more a)
    (squeezed : Squeezed drops as bs) : Squeezed more as bs := by
  induction squeezed with
  | nil => exact .nil
  | keep a as bs rest ih => exact .keep a as bs ih
  | drop a as bs gone next rest ih => exact .drop a as bs (wider a gone) next ih

-- An element that stays keeps what stands in front of it apart from what stands behind it.
theorem squeezed_apart (front back cs : List α) (a : α) (kept : ¬ drops a)
    (squeezed : Squeezed drops (front ++ a :: back) cs) :
    ∃ front' back', cs = front' ++ a :: back' ∧ Squeezed drops front front' ∧
      Squeezed drops back back' := by
  induction front generalizing cs with
  | nil =>
      cases squeezed with
      | keep _ _ back' rest => exact ⟨[], back', rfl, .nil, rest⟩
      | drop _ _ _ gone _ _ => exact absurd gone kept
  | cons b front ih =>
      cases squeezed with
      | keep _ _ cs rest =>
          obtain ⟨front', back', rfl, first, second⟩ := ih cs rest
          exact ⟨b :: front', back', rfl, .keep b _ _ first, second⟩
      | drop _ _ _ gone next rest =>
          obtain ⟨front', back', rfl, first, second⟩ := ih cs rest
          cases front' with
          | nil =>
              cases next
              exact absurd gone kept
          | cons c front' => exact ⟨c :: front', back', rfl, .drop b _ _ gone next first, second⟩

theorem squeezed_join (front front' back back' : List α) (a : α) (first : Squeezed drops front front')
    (second : Squeezed drops back back') : Squeezed drops (front ++ a :: back) (front' ++ a :: back') := by
  induction first with
  | nil => exact .keep a _ _ second
  | keep b as bs rest ih => exact .keep b _ _ ih
  | drop b as bs gone next rest ih =>
      refine .drop b _ _ gone ?_ ih
      obtain ⟨bs', rfl⟩ := List.head?_eq_some_iff.mp next
      rfl

theorem squeezed_kept (as bs : List α) (kept : ∀ a ∈ as, ¬ drops a) (squeezed : Squeezed drops as bs) :
    bs = as := by
  induction squeezed with
  | nil => rfl
  | keep a as bs rest ih => rw [ih (List.forall_mem_cons.mp kept).2]
  | drop a as bs gone next rest ih => exact absurd gone (kept a List.mem_cons_self)

theorem squeezed_single (as bs : List α) (single : ∀ a, drops a → ¬ [a, a] <:+: as)
    (squeezed : Squeezed drops as bs) : bs = as := by
  induction squeezed with
  | nil => rfl
  | keep a as bs rest ih => rw [ih fun b gone inside => single b gone (List.infix_cons inside)]
  | drop a as bs gone next rest ih =>
      rw [squeezed_head as bs rest] at next
      obtain ⟨as', rfl⟩ := List.head?_eq_some_iff.mp next
      exact absurd ⟨[], as', rfl⟩ (single a gone)

theorem squeezed_last (as bs : List α) (squeezed : Squeezed drops as bs) : bs.getLast? = as.getLast? := by
  induction squeezed with
  | nil => rfl
  | keep a as bs rest ih => rw [List.getLast?_cons, List.getLast?_cons, ih]
  | drop a as bs gone next rest ih =>
      cases as with
      | nil =>
          cases rest
          cases next
      | cons b as => rw [ih, List.getLast?_cons_cons]

end

namespace Cleanup

theorem bold_to_text (inner text found rest : List Char) (closed : boldTo inner text = some (found, rest)) :
    inner.reverse ++ text = found.reverse ++ '*' :: '*' :: rest := by
  fun_induction boldTo inner text with
  | case1 inner rest' _ =>
      cases closed
      rfl
  | case2 inner rest' _ ih => simpa using ih closed
  | case3 inner rest' => cases closed
  | case4 inner c rest' _ _ ih => simpa using ih closed
  | case5 inner => cases closed

theorem bold_text (text found rest : List Char) (bold : bold? text = some (found, rest)) :
    text = '*' :: '*' :: (found.reverse ++ '*' :: '*' :: rest) := by
  unfold bold? at bold
  split at bold
  · rename_i c text'
    split at bold
    · cases bold
    · exact congrArg (fun text => '*' :: '*' :: text) (bold_to_text [c] text' found rest bold)
  · cases bold

theorem single_asterisks_squeezed (done text : List Char) :
    Squeezed (· = '*') (done.reverse ++ text) (singleAsterisks done text) := by
  fun_induction singleAsterisks done text with
  | case1 done => simpa using squeezed_refl done.reverse
  | case2 done c text inner rest found _ ih =>
      -- One asterisk goes on either side of the text between them.
      have closed : Squeezed (· = '*') (inner.reverse ++ '*' :: '*' :: rest)
          (inner.reverse ++ '*' :: rest) :=
        squeezed_prepend _ _ _ (.drop _ _ _ rfl rfl (squeezed_refl _))
      have opened : Squeezed (· = '*') ('*' :: '*' :: (inner.reverse ++ '*' :: '*' :: rest))
          ('*' :: (inner.reverse ++ '*' :: rest)) := .drop _ _ _ rfl rfl (.keep _ _ _ closed)
      rw [bold_text _ _ _ found]
      exact squeezed_trans _ _ _ (squeezed_prepend done.reverse _ _ opened) (by simpa using ih)
  | case3 done c text _ ih => simpa using ih

theorem limit_line_ends_squeezed (done : List Char) (count : Nat) (text : List Char)
    (run : 0 < count → done.head? = some '\n') :
    Squeezed (· = '\n') (done.reverse ++ text) (limitLineEnds done count text) := by
  induction text generalizing done count with
  | nil => simpa [limitLineEnds] using squeezed_refl done.reverse
  | cons c text ih =>
      rw [limitLineEnds]
      split
      · rename_i feed
        subst feed
        by_cases short : count < 2
        · simpa [short] using ih ('\n' :: done) (count + 1) fun _ => rfl
        · have last := run (by omega)
          obtain ⟨done', rfl⟩ := List.head?_eq_some_iff.mp last
          have dropped : Squeezed (· = '\n') (done'.reverse ++ '\n' :: '\n' :: text)
              (done'.reverse ++ '\n' :: text) :=
            squeezed_prepend _ _ _ (.drop _ _ _ rfl rfl (squeezed_refl _))
          have rest := ih ('\n' :: done') (count + 1) fun _ => last
          rw [if_neg short]
          refine squeezed_trans _ (('\n' :: done').reverse ++ text) _ ?_ rest
          simpa using dropped
      · simpa using ih (c :: done) 0 fun positive => absurd positive (Nat.lt_irrefl 0)

theorem limit_line_ends_thinned (text : List Char) :
    Thinned (· = '\n') text (limitLineEnds [] 0 text) :=
  squeezed_thinned _ _ (limit_line_ends_squeezed [] 0 text fun positive =>
    absurd positive (Nat.lt_irrefl 0))

def Spare (c : Char) : Prop := c = '*' ∨ c = '\n'

instance : DecidablePred Spare := fun c => inferInstanceAs (Decidable (c = '*' ∨ c = '\n'))

theorem passes_squeezed (raw : List Char) :
    Squeezed Spare raw (limitLineEnds [] 0 (singleAsterisks [] raw)) :=
  squeezed_trans _ _ _
    (squeezed_mono _ _ _ (fun _ => Or.inl) (single_asterisks_squeezed [] raw))
    (squeezed_mono _ _ _ (fun _ => Or.inr) (limit_line_ends_squeezed [] 0 _ fun positive =>
      absurd positive (Nat.lt_irrefl 0)))

end Cleanup

namespace Glyph

def Drops (drops : Char → Prop) : Glyph → Prop
  | .plain c => drops c
  | .code _ => False

theorem thinned_solid (drops : Char → Prop) (front as bs : List Char) (kept : ∀ c ∈ front, ¬ drops c)
    (thinned : Thinned drops (front ++ as) bs) : ∃ cs, bs = front ++ cs ∧ Thinned drops as cs := by
  induction front generalizing bs with
  | nil => exact ⟨bs, rfl, thinned⟩
  | cons c front ih =>
      obtain ⟨own, others⟩ := List.forall_mem_cons.mp kept
      cases thinned with
      | keep _ _ bs rest =>
          obtain ⟨cs, rfl, thinned'⟩ := ih bs others rest
          exact ⟨cs, rfl, thinned'⟩
      | drop _ _ _ gone _ => exact absurd gone own

theorem placeholder_made (n : Nat) (c : Char) (member : c ∈ Writer.placeholder n) :
    c = '\x00' ∨ c.isDigit = true := by
  unfold Writer.placeholder at member
  rw [Nat.toString_eq_repr, Nat.toList_repr] at member
  obtain front | last := List.mem_append.mp member
  · obtain rfl | digit := List.mem_cons.mp front
    · exact .inl rfl
    · exact .inr (Nat.isDigit_of_mem_toDigits (by decide) (by decide) digit)
  · exact .inl (List.mem_singleton.mp last)

theorem placeholder_kept (n : Nat) (c : Char) (member : c ∈ Writer.placeholder n) : ¬ Cleanup.Spare c := by
  obtain rfl | digit := placeholder_made n c member
  · decide
  · rintro (rfl | rfl) <;> cases digit

theorem squeezed_solid (drops : Char → Prop) (front as bs : List Char) (kept : ∀ c ∈ front, ¬ drops c)
    (squeezed : Squeezed drops (front ++ as) bs) : ∃ cs, bs = front ++ cs ∧ Squeezed drops as cs := by
  induction front generalizing bs with
  | nil => exact ⟨bs, rfl, squeezed⟩
  | cons c front ih =>
      obtain ⟨own, others⟩ := List.forall_mem_cons.mp kept
      cases squeezed with
      | keep _ _ bs rest =>
          obtain ⟨cs, rfl, squeezed'⟩ := ih bs others rest
          exact ⟨cs, rfl, squeezed'⟩
      | drop _ _ _ gone _ _ => exact absurd gone own

-- A placeholder starts with what no pass leaves out.
theorem spell_spare (n : Nat) (glyphs : List Glyph) (c : Char) (spare : Cleanup.Spare c)
    (first : (spell n glyphs).head? = some c) : glyphs.head? = some (.plain c) := by
  cases glyphs with
  | nil => cases first
  | cons glyph glyphs =>
      cases glyph with
      | plain d =>
          cases first
          rfl
      | code piece =>
          cases first
          exact absurd spare (by decide)

-- Squeezed markup is the markup of squeezed glyphs.
theorem squeezed_spell (n : Nat) (glyphs : List Glyph) (text : List Char)
    (squeezed : Squeezed Cleanup.Spare (spell n glyphs) text) :
    ∃ glyphs', text = spell n glyphs' ∧ Squeezed (Drops Cleanup.Spare) glyphs glyphs' := by
  induction glyphs generalizing n text with
  | nil =>
      cases squeezed
      exact ⟨[], rfl, .nil⟩
  | cons glyph glyphs ih =>
      cases glyph with
      | plain c =>
          cases squeezed with
          | keep _ _ rest squeezed' =>
              obtain ⟨glyphs', rfl, own⟩ := ih n rest squeezed'
              exact ⟨.plain c :: glyphs', rfl, .keep _ _ _ own⟩
          | drop _ _ _ gone next squeezed' =>
              obtain ⟨glyphs', rfl, own⟩ := ih n text squeezed'
              exact ⟨glyphs', rfl, .drop _ _ _ gone (spell_spare n glyphs' c gone next) own⟩
      | code piece =>
          obtain ⟨rest, rfl, squeezed'⟩ := squeezed_solid _ _ _ _ (placeholder_kept n) squeezed
          obtain ⟨glyphs', rfl, own⟩ := ih (n + 1) rest squeezed'
          exact ⟨.code piece :: glyphs', rfl, .keep _ _ _ own⟩

theorem thinned_pieces (drops : Char → Prop) (glyphs glyphs' : List Glyph)
    (thinned : Thinned (Drops drops) glyphs glyphs') : pieces glyphs' = pieces glyphs := by
  induction thinned with
  | nil => rfl
  | keep glyph _ _ _ ih => cases glyph <;> simp [pieces, ih]
  | drop glyph _ _ gone _ ih =>
      cases glyph with
      | plain c => exact ih
      | code piece => cases gone

theorem thinned_clean (drops : Char → Prop) (glyphs glyphs' : List Glyph)
    (thinned : Thinned (Drops drops) glyphs glyphs') (clean : Clean glyphs) : Clean glyphs' := by
  induction thinned with
  | nil => exact clean
  | keep glyph as bs rest ih =>
      intro c member
      obtain same | inside := List.mem_cons.mp member
      · exact clean c (same ▸ List.mem_cons_self)
      · exact ih (fun d found => clean d (List.mem_cons_of_mem _ found)) c inside
  | drop glyph as bs gone rest ih => exact ih fun d found => clean d (List.mem_cons_of_mem _ found)

theorem thinned_print (glyphs glyphs' : List Glyph)
    (thinned : Thinned (Drops Cleanup.Spare) glyphs glyphs') :
    (print glyphs).filter isVisible = (print glyphs').filter isVisible := by
  induction thinned with
  | nil => rfl
  | keep glyph as bs rest ih =>
      cases glyph with
      | plain c => rw [print, print, List.filter_cons, List.filter_cons, ih]
      | code piece => rw [print, print, List.filter_append, List.filter_append, ih]
  | drop glyph as bs gone rest ih =>
      cases glyph with
      | plain c =>
          have hidden : isVisible c = false := by obtain rfl | rfl := gone <;> decide
          rw [print, List.filter_cons, hidden, if_neg (by decide), ih]
      | code piece => cases gone

end Glyph

namespace Cleanup

theorem digit_decimal (c : Char) (digit : c.isDigit = true) :
    Text.digit? 10 c = some (c.toNat - '0'.toNat) := by
  have range : ('0' ≤ c && c ≤ '9') = true := digit
  have bound : c.toNat ≤ 57 := by
    rw [Bool.and_eq_true, decide_eq_true_eq, decide_eq_true_eq] at range
    exact range.2
  have small : c.toNat - '0'.toNat < 10 := by
    change c.toNat - 48 < 10
    omega
  unfold Text.digit?
  dsimp only
  rw [if_pos range, if_pos small]

theorem of_digits_decimal (digits : List Char) (decimal : ∀ c ∈ digits, c.isDigit = true) (n : Nat) :
    digits.foldl (fun n c => 10 * n + (Text.digit? 10 c).getD 0) n = Nat.ofDigitChars 10 digits n := by
  induction digits generalizing n with
  | nil => rfl
  | cons c digits ih =>
      obtain ⟨own, others⟩ := List.forall_mem_cons.mp decimal
      rw [List.foldl_cons, digit_decimal c own, ih others, Nat.ofDigitChars_cons]
      rfl

theorem placeholder_read (n : Nat) (more : List Char) :
    placeholder? ((toString n).toList ++ '\x00' :: more) = some (n, (toString n).toList.length + 1) := by
  rw [Nat.toString_eq_repr, Nat.toList_repr]
  have decimal : ∀ c ∈ Nat.toDigits 10 n, c.isDigit = true := fun c member =>
    Nat.isDigit_of_mem_toDigits (by decide) (by decide) member
  have digits : (Nat.toDigits 10 n ++ '\x00' :: more).takeWhile Char.isDigit = Nat.toDigits 10 n := by
    rw [List.takeWhile_append_of_pos decimal]
    simp
  have value : Text.ofDigits 10 (Nat.toDigits 10 n) = n :=
    (of_digits_decimal _ decimal 0).trans Nat.ofDigitChars_ten_toDigits
  unfold placeholder?
  rw [digits]
  simp [value]

theorem restore_spell (kept : Array (List Char)) (done : List Char) (n : Nat) (glyphs : List Glyph)
    (clean : Glyph.Clean glyphs) (rest : kept.toList.drop n = Glyph.pieces glyphs) :
    restore kept done (Glyph.spell n glyphs) = done.reverse ++ Glyph.print glyphs := by
  induction glyphs generalizing done n with
  | nil => simp [Glyph.spell, Glyph.print, restore]
  | cons glyph glyphs ih =>
      have clean' : Glyph.Clean glyphs := fun c member => clean c (List.mem_cons_of_mem _ member)
      cases glyph with
      | plain c =>
          have solid : c ≠ '\x00' := clean c List.mem_cons_self
          rw [Glyph.spell, restore, if_neg solid]
          simpa [Glyph.print] using ih (c :: done) n clean' rest
      | code piece =>
          have own : kept.getD n [] = piece := by
            have first := congrArg List.head? rest
            rw [List.head?_drop, Array.getElem?_toList] at first
            rw [Array.getD_eq_getD_getElem?, first]
            rfl
          have others : kept.toList.drop (n + 1) = Glyph.pieces glyphs := by
            rw [← List.tail_drop, rest]
            rfl
          rw [Glyph.spell, Writer.placeholder, List.cons_append, List.cons_append, List.append_assoc,
            List.singleton_append, restore, if_pos rfl, placeholder_read]
          dsimp only
          rw [own, List.drop_length_add_append]
          simpa [Glyph.print] using ih (piece.reverse ++ done) (n + 1) clean' others

end Cleanup

end MarkdownServer.Wiki
