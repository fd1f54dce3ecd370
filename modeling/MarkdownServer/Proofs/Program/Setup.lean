import MarkdownServer.Program
import MarkdownServer.Proofs.Settings.Acceptance
import MarkdownServer.Proofs.Wiki.Options
/- What a program is set up to do. The settings that were accepted are the ones it runs under: the command
   line has a say in the transport and the address only, and no step from a setting to a tool or to a limit
   of the service turns it into something else. -/
set_option autoImplicit false

namespace MarkdownServer.Program

open Text (trim)
open Wiki (TrimmedOf)

inductive Applied : Option String → Option String → Prop where
  | none : Applied none none
  | theme (theme own : String) (trimmed : TrimmedOf theme.toList own.toList) (filled : own ≠ "") :
      Applied (some theme) (some own)

theorem options_applied (settings : Settings) (sensible : settings.Sensible) :
    Applied settings.converter.theme settings.options.theme ∧
      settings.options.limit = settings.converter.inputLimit := by
  refine ⟨?_, rfl⟩
  have made : settings.options.theme = Wiki.Options.asked? settings.converter.theme :=
    Wiki.Options.normalise_theme_asked settings.converter.theme
  rw [made]
  cases told : settings.converter.theme with
  | none => exact .none
  | some theme =>
      have filled : trim theme ≠ "" := by
        intro empty
        obtain ⟨c, member, solid⟩ := sensible.theme theme told
        exact absurd (Wiki.blank_of_trim theme empty c member) (by simp [solid])
      rw [Wiki.Options.asked?, if_neg filled]
      exact .theme theme (trim theme) (Wiki.trim_of theme) filled

-- The limit for an input of some size, over the sizes of 64 bits. Neither of the two steps goes beyond the
-- greatest size.
structure BodyLimited (limit : Nat → Nat) : Prop where
  formula : ∀ n, limit n = min (2 * n + 65536) (2 ^ 64 - 1)
  steps : ∀ n, limit n = min (min (2 * n) (2 ^ 64 - 1) + 65536) (2 ^ 64 - 1)
  covers : ∀ n, n ≤ 2 ^ 64 - 1 → n ≤ limit n
  monotone : ∀ m n, m ≤ n → limit m ≤ limit n

theorem body_limited : BodyLimited Http.bodyLimitFor where
  formula _ := rfl
  steps n := by
    unfold Http.bodyLimitFor Http.envelope Http.greatestSize
    omega
  covers n size := by
    unfold Http.bodyLimitFor Http.envelope Http.greatestSize
    omega
  monotone m n less := by
    unfold Http.bodyLimitFor
    omega

structure Configured (command : CommandLine) (settings : Settings) (program : Program) : Prop where
  valid : program.settings.validate = .ok ()
  overridden : program.settings = { settings with server := { settings.server with
    transport := command.transport.getD settings.server.transport
    address := command.address.getD settings.server.address } }
  theme : Applied settings.converter.theme program.settings.options.theme
  limit : program.settings.options.limit = settings.converter.inputLimit
  tools : program.server.registry.tools = Tools.standardTools program.settings.options
  sessions : program.settings.limits.sessions = settings.server.sessions
  idle : program.settings.limits.idleTimeout = Http.seconds settings.server.idleTimeout
  body : program.settings.limits.body = Http.bodyLimitFor settings.converter.inputLimit
  room : settings.converter.inputLimit ≤ program.settings.limits.body

theorem apply_sensible (command : CommandLine) (settings : Settings) (sensible : settings.Sensible) :
    (command.apply settings).Sensible :=
  ⟨sensible.input, sensible.sessions, sensible.idle, sensible.theme⟩

theorem of_configured (command : CommandLine) (settings : Settings) (sensible : settings.Sensible)
    (sized : settings.Sized) : Configured command settings (.of command settings) := by
  have own := apply_sensible command settings sensible
  obtain ⟨theme, limit⟩ := options_applied (command.apply settings) own
  exact {
    valid := (Settings.validate_iff _).mpr own
    overridden := rfl
    theme
    limit
    tools := rfl
    sessions := max_eq_right sensible.sessions
    idle := rfl
    body := rfl
    room := body_limited.covers _ sized.input }

theorem start_of (files : String → Settings.Entry) (home : Option String) (command : CommandLine)
    (settings : Settings) (arguments : List String) (read : CommandLine.read arguments = .ok command)
    (loaded : Settings.loadFrom files command.path home = .ok settings) :
    start arguments files home = .ok (.of command settings) := by
  simp only [start, read, Except.mapError, bind, Except.bind, loaded]
  rfl

structure Carried (files : String → Settings.Entry) (named home : Option String) (command : CommandLine)
    (settings : Settings) : Prop where
  sensible : settings.Sensible
  sized : settings.Sized
  configured : Configured command settings (.of command settings)
  started : ∀ arguments, CommandLine.read arguments = .ok command → command.path = named →
    start arguments files home = .ok (.of command settings)
  body : BodyLimited Http.bodyLimitFor

def extremeText : String :=
  "\x7b\"server\": \x7b\"session_idle_timeout_secs\": 18446744073709551615, \"max_sessions\": 1\x7d, " ++
    "\"converter\": \x7b\"default_theme\": \"\\u2003rdark\\t\", " ++
    "\"max_input_bytes\": 9223372036854743040\x7d\x7d"

def extreme : Settings where
  server := { idleTimeout := 18446744073709551615, sessions := 1 }
  converter := { theme := some "\u2003rdark\t", inputLimit := 9223372036854743040 }

theorem extreme_loaded :
    Settings.loadFrom (Settings.holding extremeText) (some "wiki.json") none = .ok extreme := by
  apply Settings.named_file_loaded
  · decide +kernel
  · exact (Settings.validate_iff extreme).mp (by decide +kernel)

end MarkdownServer.Program
