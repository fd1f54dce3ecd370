import MarkdownServer.Proofs.Tools.Results
import MarkdownServer.Proofs.Wiki.Options
import MarkdownServer.Tools.Pages
/- The theme of a call. A text and a template are converted alike: under the theme that the call asks for,
   or else under the one of the options, and within the limit of the options. A theme that nobody knows is
   logged once. -/
set_option autoImplicit false

namespace MarkdownServer.Tools

open Json (Value)
open Text (isBlank trim)
open Wiki (Known Options TrimmedOf)
open Wiki.Options (Made Step Tidy after asked?)

-- A call that has no theme, null or a string of blanks asks for none; any other string asks for what
-- is left of it without the blanks around it.
inductive Asks (arguments : Value) : Option String → Prop where
  | absent (left : arguments.member? "theme" = none) : Asks arguments none
  | null (given : arguments.member? "theme" = some .null) : Asks arguments none
  | blank (theme : String) (given : arguments.member? "theme" = some (.text theme))
      (blank : ∀ c ∈ theme.toList, isBlank c = true) : Asks arguments none
  | own (theme own : String) (given : arguments.member? "theme" = some (.text theme))
      (trimmed : TrimmedOf theme.toList own.toList) (filled : own ≠ "") : Asks arguments (some own)

theorem asks_read (arguments : Value) (asked : Option String) (asks : Asks arguments asked) :
    ∃ given, optionalText arguments "theme" = .ok given ∧ asked? given = asked := by
  cases asks with
  | absent left => exact ⟨none, by simp [optionalText, left], rfl⟩
  | null given => exact ⟨none, by simp [optionalText, given], rfl⟩
  | blank theme given blank =>
      have nothing : TrimmedOf theme.toList "".toList :=
        ⟨⟨theme.toList, [], blank, by simp, by simp⟩, by simp [Wiki.Trimmed]⟩
      exact ⟨some theme, by simp [optionalText, given], by simp [asked?, Wiki.trim_unique _ _ nothing]⟩
  | own theme own given trimmed filled =>
      exact ⟨some theme, by simp [optionalText, given],
        by simp [asked?, Wiki.trim_unique _ _ trimmed, filled]⟩

theorem asks_something (arguments : Value)
    (given : ∀ v, arguments.member? "theme" = some v → v = .null ∨ ∃ theme, v = .text theme) :
    ∃ asked, Asks arguments asked := by
  cases held : arguments.member? "theme" with
  | none => exact ⟨none, .absent held⟩
  | some v =>
      obtain rfl | ⟨theme, rfl⟩ := given v held
      · exact ⟨none, .null held⟩
      · by_cases filled : trim theme = ""
        · exact ⟨none, .blank theme held (Wiki.blank_of_trim theme filled)⟩
        · exact ⟨some (trim theme), .own theme _ held (Wiki.trim_of theme) filled⟩

structure Warned (asked : Option String) (log : List Log.Record) : Prop where
  unknown : ∀ own, asked = some own → ¬ Known own → log = [unknownTheme own]
  otherwise : (∀ own, asked = some own → Known own) → log = []

theorem warned_unique (asked : Option String) (log other : List Log.Record) (warned : Warned asked log)
    (warnedOther : Warned asked other) : log = other := by
  by_cases known : ∀ own, asked = some own → Known own
  · rw [warned.otherwise known, warnedOther.otherwise known]
  · push Not at known
    obtain ⟨own, same, unknown⟩ := known
    rw [warned.unknown own same unknown, warnedOther.unknown own same unknown]

theorem options_for_asked (defaults : Options) (given : Option String) :
    (optionsFor defaults given).1 = ⟨(asked? given).or defaults.theme, defaults.limit⟩ ∧
      Warned (asked? given) (optionsFor defaults given).2 := by
  rw [optionsFor, Wiki.Options.normalise_theme_asked]
  cases asked : asked? given with
  | none => exact ⟨rfl, nofun, fun _ => rfl⟩
  | some own =>
      constructor
      · simp [Wiki.Options.setTheme, Wiki.Options.normalise_theme_asked,
          Wiki.Options.asked_again given own asked]
      · refine ⟨?_, fun known => if_pos ((Wiki.is_known_iff own).mpr (known own rfl))⟩
        rintro _ ⟨⟩ unknown
        exact if_neg (mt (Wiki.is_known_iff own).mp unknown)

theorem convert_for_asked (defaults : Options) (given : Option String) (source : String) :
    (convertFor defaults given source).1 =
        (Wiki.convert ⟨(asked? given).or defaults.theme, defaults.limit⟩ source).mapError .rendering ∧
      Warned (asked? given) (convertFor defaults given source).2 := by
  obtain ⟨options, warned⟩ := options_for_asked defaults given
  exact ⟨by rw [← options]; rfl, warned⟩

def Output.markup? : Output → Option String
  | .text page => some page
  | .json v => (v.member? "confluenceMarkup").bind Value.text?

theorem converted_template_markup (t : Templates.Template) (page : String) :
    (Output.json (convertedTemplate t page).sorted).markup? = some page := by
  rw [convertedTemplate, Value.sorted, Value.ofMembers, Output.markup?, Value.member?, Json.lookup_gathered]
  rfl

structure Converts (defaults : Options) (asked : Option String) (source : String) (outcome : Outcome) :
    Prop where
  markup : outcome.result.map Output.markup? =
    ((Wiki.convert ⟨asked.or defaults.theme, defaults.limit⟩ source).mapError .rendering).map some
  log : Warned asked outcome.log

def TakesText (arguments : Value) (source : String) : Prop :=
  arguments.member? "markdown" = some (.text source)

structure TakesTemplate (arguments : Value) (t : Templates.Template) : Prop where
  known : t ∈ Templates.all
  named : arguments.member? "template_id" = some (.text t.id)

theorem template_found (t : Templates.Template) (known : t ∈ Templates.all) :
    Templates.find? t.id = some t := by
  revert t
  simp only [Templates.all, List.forall_mem_cons]
  exact ⟨rfl, rfl, rfl, rfl, List.forall_mem_nil _⟩

theorem markdown_converts (defaults : Options) (arguments : Value) (asked : Option String)
    (source : String) (asks : Asks arguments asked) (takes : TakesText arguments source) :
    Converts defaults asked source ((convertMarkdown defaults).run arguments) := by
  obtain ⟨given, read, rfl⟩ := asks_read arguments asked asks
  obtain ⟨page, warned⟩ := convert_for_asked defaults given source
  have text : requiredText arguments "markdown" = .ok source := by
    rw [requiredText, takes]
  have run : (convertMarkdown defaults).run arguments =
      ⟨(convertFor defaults given source).1.map .text, (convertFor defaults given source).2⟩ := by
    simp only [convertMarkdown, text, read]
    rfl
  rw [run]
  refine ⟨?_, warned⟩
  rw [← page]
  cases (convertFor defaults given source).1 <;> rfl

theorem template_converts (defaults : Options) (arguments : Value) (asked : Option String)
    (t : Templates.Template) (asks : Asks arguments asked) (takes : TakesTemplate arguments t) :
    Converts defaults asked t.content ((convertTemplate defaults).run arguments) := by
  obtain ⟨given, read, rfl⟩ := asks_read arguments asked asks
  obtain ⟨page, warned⟩ := convert_for_asked defaults given t.content
  have template : findTemplate arguments = .ok t := by
    simp only [findTemplate, requiredText, takes.named, bind, Except.bind, template_found t takes.known]
    rfl
  have run : (convertTemplate defaults).run arguments =
      ⟨(convertFor defaults given t.content).1.map fun page => .json (convertedTemplate t page).sorted,
        (convertFor defaults given t.content).2⟩ := by
    rw [← outputs_of_values]
    simp only [convertTemplate, template, read]
    rfl
  rw [run]
  refine ⟨?_, warned⟩
  rw [← page]
  cases (convertFor defaults given t.content).1 with
  | error fault => rfl
  | ok page => exact congrArg Except.ok (converted_template_markup t page)

-- A call that takes a text and a call that takes a template of that text, with themes that ask for the
-- same, have the same markup or fail alike, and log the same.
structure ThemesResolved (defaults : Options) : Prop where
  asked : ∀ arguments : Value,
    (∀ v, arguments.member? "theme" = some v → v = .null ∨ ∃ theme, v = .text theme) →
      ∃ asked, Asks arguments asked
  markdown : ∀ arguments asked source, Asks arguments asked → TakesText arguments source →
    Converts defaults asked source ((convertMarkdown defaults).run arguments)
  template : ∀ arguments asked t, Asks arguments asked → TakesTemplate arguments t →
    Converts defaults asked t.content ((convertTemplate defaults).run arguments)
  alike : ∀ call other asked t, Asks call asked → Asks other asked → TakesText call t.content →
    TakesTemplate other t →
      ((convertMarkdown defaults).run call).result.map Output.markup? =
          ((convertTemplate defaults).run other).result.map Output.markup? ∧
        ((convertMarkdown defaults).run call).log = ((convertTemplate defaults).run other).log

theorem themes_resolved (defaults : Options) : ThemesResolved defaults where
  asked := asks_something
  markdown := markdown_converts defaults
  template := template_converts defaults
  alike := by
    intro call other asked t asks asksOther takes takesOther
    have first := markdown_converts defaults call asked t.content asks takes
    have second := template_converts defaults other asked t asksOther takesOther
    exact ⟨first.markup.trans second.markup.symm, warned_unique asked _ _ first.log second.log⟩

theorem theme_resolution_alike (steps : List Step) :
    Made steps (after steps) ∧ Tidy (after steps).theme ∧ ThemesResolved (after steps) :=
  ⟨Wiki.Options.after_made steps, Wiki.Options.after_tidy steps, themes_resolved (after steps)⟩

end MarkdownServer.Tools
