import Mathlib.Data.List.Forall2
import MarkdownServer.Proofs.Wiki.Shape
import MarkdownServer.Wiki.Theme
/- The options of a conversion, whatever steps have made them: a theme has no blanks around it and is not
   empty, and the limit is the one set last. A theme is known if it differs from one of the list in the
   case of its letters only, so no known theme has blanks around it. -/
set_option autoImplicit false

namespace MarkdownServer.Wiki

open Text (isBlank trim trimBlanks)

structure TrimmedOf (text trimmed : List Char) : Prop where
  split : ∃ front back, (∀ c ∈ front, isBlank c = true) ∧ (∀ c ∈ back, isBlank c = true) ∧
    text = front ++ trimmed ++ back
  ends : Trimmed trimmed

theorem trim_blanks_of (text : List Char) : TrimmedOf text (trimBlanks text) where
  split := by
    have all (cs : List Char) : ∀ c ∈ cs.takeWhile isBlank, isBlank c = true :=
      fun _ member => List.all_eq_true.mp List.all_takeWhile _ member
    refine ⟨text.takeWhile isBlank, ((text.dropWhile isBlank).reverse.takeWhile isBlank).reverse,
      all text, fun c member => all _ c (List.mem_reverse.mp member), ?_⟩
    rw [trimBlanks, List.append_assoc, ← List.reverse_append, List.takeWhile_append_dropWhile,
      List.reverse_reverse, List.takeWhile_append_dropWhile]
  ends := trim_trimmed text

theorem drop_while_blank (front text : List Char) (blank : ∀ c ∈ front, isBlank c = true)
    (solid : ∀ c, text.head? = some c → isBlank c = false) :
    (front ++ text).dropWhile isBlank = text := by
  rw [List.dropWhile_append_of_pos blank]
  cases text with
  | nil => rfl
  | cons c text => exact List.dropWhile_cons_of_neg (by simp [solid c rfl])

theorem trim_blanks_unique (text trimmed : List Char) (of : TrimmedOf text trimmed) :
    trimBlanks text = trimmed := by
  obtain ⟨⟨front, back, blankFront, blankBack, rfl⟩, first, last⟩ := of
  have blankReverse : ∀ c ∈ back.reverse, isBlank c = true :=
    fun c member => blankBack c (List.mem_reverse.mp member)
  have solidReverse : ∀ c, trimmed.reverse.head? = some c → isBlank c = false := by
    simpa [List.head?_reverse] using last
  rw [trimBlanks, List.append_assoc]
  cases trimmed with
  | nil => simp [List.dropWhile_append_of_pos blankFront, List.dropWhile_eq_nil_iff.mpr blankBack]
  | cons c rest =>
      rw [drop_while_blank front _ blankFront (by simpa using first), List.reverse_append,
        drop_while_blank back.reverse _ blankReverse solidReverse, List.reverse_reverse]

theorem trim_of (s : String) : TrimmedOf s.toList (trim s).toList := by
  rw [trim, String.toList_ofList]
  exact trim_blanks_of s.toList

theorem trim_unique (s own : String) (of : TrimmedOf s.toList own.toList) : trim s = own := by
  rw [trim, trim_blanks_unique _ _ of, String.ofList_toList]

theorem trim_trim (s : String) : trim (trim s) = trim s := by
  apply trim_unique (trim s) (trim s)
  exact ⟨⟨[], [], by simp, by simp, by simp⟩, (trim_of s).ends⟩

theorem blank_of_trim (s : String) (empty : trim s = "") : ∀ c ∈ s.toList, isBlank c = true := by
  intro c member
  obtain ⟨front, back, blankFront, blankBack, whole⟩ := (trim_of s).split
  rw [whole, empty] at member
  rcases List.mem_append.mp member with inFront | inBack
  · exact blankFront c (by simpa using inFront)
  · exact blankBack c inBack

def SameLetter (c d : Char) : Prop :=
  c = d ∨ (c.isUpper = true ∧ d.toNat = c.toNat + 32) ∨ (d.isUpper = true ∧ c.toNat = d.toNat + 32)

def Known (theme : String) : Prop :=
  ∃ known ∈ knownThemes, List.Forall₂ SameLetter known.toList theme.toList

theorem upper_number (c : Char) : c.isUpper = true ↔ 65 ≤ c.toNat ∧ c.toNat ≤ 90 := by
  delta Char.isUpper
  simp [UInt32.le_iff_toNat_le]

theorem to_lower_number (c : Char) :
    c.toLower.toNat = if c.isUpper then c.toNat + 32 else c.toNat := by
  delta Char.toLower Char.isUpper
  by_cases upper : c.val ≥ 'A'.val ∧ c.val ≤ 'Z'.val
  · have bound : c.val.toNat ≤ 90 := UInt32.le_iff_toNat_le.mp upper.2
    have gap : ('a'.val - 'A'.val).toNat = 32 := by decide
    rw [dif_pos upper, if_pos (decide_eq_true upper)]
    change (c.val + ('a'.val - 'A'.val)).toNat = c.val.toNat + 32
    rw [UInt32.toNat_add, gap]
    omega
  · rw [dif_neg upper, if_neg (mt of_decide_eq_true upper)]

theorem same_number_iff (c d : Char) : c.toNat = d.toNat ↔ c = d :=
  ⟨fun same => by rw [← Char.ofNat_toNat c, same, Char.ofNat_toNat], congrArg Char.toNat⟩

theorem same_lower_iff (c d : Char) : c.toLower = d.toLower ↔ SameLetter c d := by
  have first := upper_number c
  have second := upper_number d
  rw [← same_number_iff, to_lower_number, to_lower_number, SameLetter, ← same_number_iff]
  split <;> split <;> simp_all <;> omega

theorem is_known_iff (theme : String) : isKnownTheme theme = true ↔ Known theme := by
  simp only [isKnownTheme, List.any_eq_true, beq_iff_eq, Known]
  refine exists_congr fun known => and_congr_right fun _ => ?_
  rw [← List.forall₂_eq_eq_eq, List.forall₂_map_left_iff, List.forall₂_map_right_iff]
  simp only [same_lower_iff]

theorem letter_solid (c d : Char) (letter : 65 ≤ c.toNat ∧ c.toNat ≤ 122) (same : SameLetter c d) :
    isBlank d = false := by
  have visible : 33 ≤ d.toNat ∧ d.toNat < 128 := by
    rcases same with rfl | ⟨upper, more⟩ | ⟨upper, less⟩
    · omega
    · have bounds := (upper_number c).mp upper
      omega
    · omega
  simp only [isBlank, Bool.or_eq_false_iff, Bool.and_eq_false_iff, beq_eq_false_iff_ne,
    decide_eq_false_iff_not]
  omega

theorem letters_solid (known theme : List Char) (letters : ∀ c ∈ known, 65 ≤ c.toNat ∧ c.toNat ≤ 122)
    (same : List.Forall₂ SameLetter known theme) : ∀ d ∈ theme, isBlank d = false := by
  induction same with
  | nil => exact nofun
  | cons first _ ih =>
      obtain ⟨letter, letters⟩ := List.forall_mem_cons.mp letters
      exact List.forall_mem_cons.mpr ⟨letter_solid _ _ letter first, ih letters⟩

theorem known_trimmed (theme : String) (known : Known theme) : Trimmed theme.toList := by
  obtain ⟨name, listed, same⟩ := known
  have letters : knownThemes.all (·.toList.all fun c => 65 ≤ c.toNat ∧ c.toNat ≤ 122) = true := by decide
  simp only [List.all_eq_true, decide_eq_true_eq] at letters
  have solid := letters_solid name.toList theme.toList (letters name listed) same
  exact ⟨fun c first => solid c (List.mem_of_head? first), fun c last => solid c (List.mem_of_getLast? last)⟩

theorem known_trimmed_iff (theme own : String) (trimmed : TrimmedOf theme.toList own.toList) :
    Known theme ↔ Known own ∧ theme = own := by
  constructor
  · intro known
    have whole : TrimmedOf theme.toList theme.toList :=
      ⟨⟨[], [], nofun, nofun, by simp⟩, known_trimmed theme known⟩
    obtain rfl : theme = own := (trim_unique theme theme whole).symm.trans (trim_unique theme own trimmed)
    exact ⟨known, rfl⟩
  · rintro ⟨known, rfl⟩
    exact known

namespace Options

def asked? : Option String → Option String
  | none => none
  | some theme => if trim theme = "" then none else some (trim theme)

theorem normalise_theme_asked (theme : Option String) : normaliseTheme theme = asked? theme := by
  cases theme with
  | none => rfl
  | some theme =>
      by_cases empty : trim theme = "" <;> simp [normaliseTheme, asked?, Option.filter, empty]

theorem asked_again (theme : Option String) (own : String) (asked : asked? theme = some own) :
    asked? (some own) = some own := by
  cases theme with
  | none => cases asked
  | some theme =>
      rw [asked?] at asked
      split at asked
      · cases asked
      · rename_i filled
        cases asked
        rw [asked?, trim_trim, if_neg filled]

inductive Step where
  | startOver
  | withTheme (theme : String)
  | theme (theme : Option String)
  | limit (bytes : Nat)

def apply : Options → Step → Options
  | _, .startOver => {}
  | _, .withTheme theme => withTheme theme
  | options, .theme theme => options.setTheme theme
  | options, .limit bytes => options.setLimit bytes

def after (steps : List Step) : Options :=
  steps.foldl apply {}

def themeOf? : Step → Option (Option String)
  | .startOver => some none
  | .withTheme theme => some (some theme)
  | .theme theme => some theme
  | .limit _ => none

def limitOf? : Step → Option Nat
  | .startOver | .withTheme _ => some Rendering.defaultLimit
  | .theme _ => none
  | .limit bytes => some bytes

def Tidy (theme : Option String) : Prop :=
  ∀ own, theme = some own → own ≠ "" ∧ Trimmed own.toList

theorem asked_tidy (theme : Option String) : Tidy (asked? theme) := by
  intro own asked
  cases theme with
  | none => cases asked
  | some theme =>
      rw [asked?] at asked
      split at asked
      · cases asked
      · rename_i filled
        cases asked
        exact ⟨filled, (trim_of theme).ends⟩

structure Made (steps : List Step) (options : Options) : Prop where
  theme : options.theme = asked? ((steps.reverse.findSome? themeOf?).getD none)
  limit : options.limit = (steps.reverse.findSome? limitOf?).getD Rendering.defaultLimit

theorem apply_made (steps : List Step) (options : Options) (step : Step) (made : Made steps options) :
    Made (steps ++ [step]) (options.apply step) := by
  obtain ⟨theme, limit⟩ := made
  cases step with
  | startOver =>
      exact ⟨by simp [apply, List.findSome?_cons, themeOf?, asked?],
        by simp [apply, List.findSome?_cons, limitOf?]⟩
  | withTheme own =>
      exact ⟨by simp [apply, List.findSome?_cons, themeOf?, withTheme, setTheme, normalise_theme_asked],
        by simp [apply, List.findSome?_cons, limitOf?, withTheme, setTheme]⟩
  | theme own =>
      exact ⟨by simp [apply, List.findSome?_cons, themeOf?, setTheme, normalise_theme_asked],
        by simpa [apply, List.findSome?_cons, limitOf?, setTheme] using limit⟩
  | limit bytes =>
      exact ⟨by simpa [apply, List.findSome?_cons, themeOf?, setLimit] using theme,
        by simp [apply, List.findSome?_cons, limitOf?, setLimit]⟩

theorem after_made (steps : List Step) : Made steps (after steps) := by
  induction steps using List.reverseRecOn with
  | nil => exact ⟨rfl, rfl⟩
  | append_singleton steps step ih =>
      have next : after (steps ++ [step]) = (after steps).apply step := by simp [after]
      rw [next]
      exact apply_made steps _ step ih

theorem after_tidy (steps : List Step) : Tidy (after steps).theme := by
  rw [(after_made steps).theme]
  exact asked_tidy _

end Options
end MarkdownServer.Wiki
