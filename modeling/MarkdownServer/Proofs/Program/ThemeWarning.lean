import MarkdownServer.Proofs.Program.Setup
import MarkdownServer.Proofs.Tools.Themes
/- The warning about the theme of the settings. It judges the theme as it stands in the settings, while a
   call judges what is left of a theme without the blanks around it, which is also what is used. No theme
   that nobody knows goes without the warning, but a known one with blanks around it is warned of as well. -/
set_option autoImplicit false

namespace MarkdownServer.Program

open Wiki (Known TrimmedOf)

def themeMessage : String := "Configured default theme is not a known Confluence theme"

def unknownDefault (theme : String) : Log.Record :=
  .warn themeMessage [("theme", .quoted theme)]

def Warned (log : List Log.Record) : Prop := ∃ r ∈ log, r.message = themeMessage

theorem theme_warning_iff (settings : Settings) (r : Log.Record) :
    themeWarning? settings = some r ↔
      ∃ theme, settings.converter.theme = some theme ∧ ¬ Known theme ∧ r = unknownDefault theme := by
  unfold themeWarning?
  cases settings.converter.theme with
  | none => simp
  | some theme =>
      by_cases known : Wiki.isKnownTheme theme
      · simp [known, (Wiki.is_known_iff theme).mp known]
      · simp [known, mt (Wiki.is_known_iff theme).mpr known, unknownDefault, themeMessage, eq_comm]

theorem start_log_warning (program : Program) (r : Log.Record) :
    r ∈ program.startLog ∧ r.message = themeMessage ↔
      ∃ theme, program.settings.converter.theme = some theme ∧ ¬ Known theme ∧ r = unknownDefault theme := by
  rw [← theme_warning_iff]
  simp only [startLog, List.mem_cons, List.mem_append, Option.mem_toList, List.not_mem_nil, or_false]
  constructor
  · rintro ⟨(rfl | told) | rfl, about⟩
    · exact absurd about (show "Starting " ++ serverName ++ " server" ≠ themeMessage by decide)
    · exact told
    · exact absurd about (show "Tools registered" ≠ themeMessage by decide)
  · intro told
    obtain ⟨theme, _, _, rfl⟩ := (theme_warning_iff _ _).mp told
    exact ⟨.inl (.inr told), rfl⟩

theorem start_log_warned (program : Program) :
    Warned program.startLog ↔ ∃ theme, program.settings.converter.theme = some theme ∧ ¬ Known theme := by
  constructor
  · rintro ⟨r, member, about⟩
    obtain ⟨theme, told, unknown, _⟩ := (start_log_warning program r).mp ⟨member, about⟩
    exact ⟨theme, told, unknown⟩
  · rintro ⟨theme, told, unknown⟩
    exact ⟨_, (start_log_warning program _).mpr ⟨theme, told, unknown, rfl⟩⟩

theorem logged_warned (program : Program) :
    Warned (program.logged program.startLog) ↔ Warned program.startLog ∧ program.level ≠ .error := by
  have passes (theme : String) :
      (unknownDefault theme).passes program.level = true ↔ program.level ≠ .error := by
    cases program.level <;> simp [unknownDefault, Log.Record.passes, Log.Record.warn, Log.Level.rank]
  simp only [Warned, logged, List.mem_filter]
  constructor
  · rintro ⟨r, ⟨member, passed⟩, about⟩
    obtain ⟨theme, _, _, rfl⟩ := (start_log_warning program r).mp ⟨member, about⟩
    exact ⟨⟨_, member, about⟩, (passes theme).mp passed⟩
  · rintro ⟨⟨r, member, about⟩, level⟩
    obtain ⟨theme, _, _, rfl⟩ := (start_log_warning program r).mp ⟨member, about⟩
    exact ⟨_, ⟨member, (passes theme).mpr level⟩, about⟩

-- The judgement at the start on a theme of the settings of which `own` is used, beside that of a call which
-- asks for the same theme. They part where the one that is used is known but not the theme as it stands.
structure Judged (program : Program) (theme own : String) : Prop where
  record : ∀ r ∈ program.startLog, r.message = themeMessage → r = unknownDefault theme
  stands : Warned program.startLog ↔ ¬ Known theme
  used : Warned program.startLog ↔ ¬ Known own ∨ theme ≠ own
  call : ∀ defaults, (Tools.optionsFor defaults (some theme)).1.theme = some own ∧
    Tools.Warned (some own) (Tools.optionsFor defaults (some theme)).2
  alike : ∀ defaults, (Warned program.startLog ↔ (Tools.optionsFor defaults (some theme)).2 ≠ []) ↔
    (Known own → theme = own)

theorem call_judged (defaults : Wiki.Options) (theme own : String)
    (trimmed : TrimmedOf theme.toList own.toList) (filled : own ≠ "") :
    (Tools.optionsFor defaults (some theme)).1.theme = some own ∧
      Tools.Warned (some own) (Tools.optionsFor defaults (some theme)).2 := by
  have asked : Wiki.Options.asked? (some theme) = some own := by
    rw [Wiki.Options.asked?, Wiki.trim_unique theme own trimmed, if_neg filled]
  obtain ⟨options, warned⟩ := Tools.options_for_asked defaults (some theme)
  rw [asked] at options warned
  exact ⟨by rw [options]; rfl, warned⟩

theorem call_warned_iff (own : String) (log : List Log.Record) (warned : Tools.Warned (some own) log) :
    log ≠ [] ↔ ¬ Known own := by
  by_cases known : Known own
  · have silent := warned.otherwise fun other same => Option.some.inj same ▸ known
    simp [silent, known]
  · have told := warned.unknown own rfl known
    simp [told, known]

theorem theme_judged (program : Program) (theme own : String)
    (told : program.settings.converter.theme = some theme)
    (trimmed : TrimmedOf theme.toList own.toList) (filled : own ≠ "") : Judged program theme own := by
  have stands : Warned program.startLog ↔ ¬ Known theme := by
    simp [start_log_warned, told]
  have used : Warned program.startLog ↔ ¬ Known own ∨ theme ≠ own := by
    rw [stands, Wiki.known_trimmed_iff theme own trimmed, not_and_or]
  refine ⟨fun r member about => ?_, stands, used, fun defaults => ?_, fun defaults => ?_⟩
  · obtain ⟨other, told', _, rfl⟩ := (start_log_warning program r).mp ⟨member, about⟩
    rw [Option.some.inj (told.symm.trans told')]
  · exact call_judged defaults theme own trimmed filled
  · rw [call_warned_iff own _ (call_judged defaults theme own trimmed filled).2, used]
    tauto

structure DefaultJudged (settings : Settings) (program : Program) : Prop where
  left : settings.converter.theme = none →
    program.settings.options.theme = none ∧ ¬ Warned program.startLog
  told : ∀ theme, settings.converter.theme = some theme → ∃ own,
    TrimmedOf theme.toList own.toList ∧ program.settings.options.theme = some own ∧ Judged program theme own
  written : Warned (program.logged program.startLog) ↔ Warned program.startLog ∧ program.level ≠ .error

theorem default_theme_judged (files : String → Settings.Entry) (named home : Option String)
    (command : CommandLine) (settings : Settings)
    (loaded : Settings.loadFrom files named home = .ok settings) :
    DefaultJudged settings (.of command settings) := by
  obtain ⟨_, sensible⟩ := (Settings.load_from_iff files named home settings).mp loaded
  have applied : Applied settings.converter.theme (command.apply settings).options.theme :=
    (options_applied (command.apply settings) (apply_sensible command settings sensible)).1
  constructor
  case left =>
    intro left
    rw [left] at applied
    generalize used : (command.apply settings).options.theme = own at applied
    cases applied
    exact ⟨used, by simp [start_log_warned, of, CommandLine.apply, left]⟩
  case told =>
    intro theme told
    rw [told] at applied
    generalize used : (command.apply settings).options.theme = own at applied
    cases applied with
    | theme _ own trimmed filled =>
        exact ⟨own, trimmed, used, theme_judged (.of command settings) theme own told trimmed filled⟩
  case written => exact logged_warned (.of command settings)

theorem default_theme_judged_extreme :
    Settings.loadFrom (Settings.holding extremeText) (some "wiki.json") none = .ok extreme ∧
      DefaultJudged extreme (.of { verbosity := 1 } extreme) ∧
      Warned (Program.of { verbosity := 1 } extreme).startLog := by
  have judged := default_theme_judged _ _ _ { verbosity := 1 } _ extreme_loaded
  obtain ⟨own, trimmed, _, judgement⟩ := judged.told "\u2003rdark\t" rfl
  refine ⟨extreme_loaded, judged, judgement.used.mpr (.inr ?_)⟩
  have same : own = "rdark" := (Wiki.trim_unique _ _ trimmed).symm.trans (by decide)
  rw [same]
  decide

def paddedText : String := "\x7b\"converter\": \x7b\"default_theme\": \" Emacs \"\x7d\x7d"

def padded : Settings where
  converter := { theme := some " Emacs " }

theorem padded_loaded :
    Settings.loadFrom (Settings.holding paddedText) (some "wiki.json") none = .ok padded := by
  apply Settings.named_file_loaded
  · decide +kernel
  · exact (Settings.validate_iff padded).mp (by decide +kernel)

theorem padded_default_warned :
    Settings.loadFrom (Settings.holding paddedText) (some "wiki.json") none = .ok padded ∧
      (Program.of {} padded).settings.options.theme = some "Emacs" ∧ Known "Emacs" ∧
      (Tools.optionsFor {} (some " Emacs ")).2 = [] ∧
      unknownDefault " Emacs " ∈ (Program.of {} padded).startLog := by
  have known : Known "Emacs" := (Wiki.is_known_iff "Emacs").mp (by decide)
  exact ⟨padded_loaded, by decide, known, by decide, by decide +kernel⟩

end MarkdownServer.Program
