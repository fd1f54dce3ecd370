import MarkdownServer.Proofs.Json.Ranges
import MarkdownServer.Proofs.Settings.Decoding
import MarkdownServer.Proofs.Text.Utf8
import MarkdownServer.Settings.File
/- Which settings are ever accepted: those that are told where settings are looked for, if they make sense.
   Whatever is accepted has no limit that is zero, no blank theme, and no number beyond 64 bits. -/
set_option autoImplicit false

namespace MarkdownServer.Settings

open Json (InText Value)
open Text (isBlank)

structure Sensible (settings : Settings) : Prop where
  input : 0 < settings.converter.inputLimit
  sessions : 0 < settings.server.sessions
  idle : 0 < settings.server.idleTimeout
  theme : ∀ theme, settings.converter.theme = some theme → ∃ c ∈ theme.toList, isBlank c = false

theorem blank_theme_iff (theme : Option String) :
    theme.any Text.allBlank = false ↔ ∀ own, theme = some own → ∃ c ∈ own.toList, isBlank c = false := by
  cases theme <;> simp [Text.allBlank]

theorem validate_iff (settings : Settings) : settings.validate = .ok () ↔ Sensible settings := by
  constructor
  · intro valid
    unfold validate at valid
    split at valid
    · cases valid
    rename_i input
    split at valid
    · cases valid
    rename_i sessions
    split at valid
    · cases valid
    rename_i idle
    split at valid
    · cases valid
    rename_i theme
    exact ⟨Nat.pos_of_ne_zero input, Nat.pos_of_ne_zero sessions, Nat.pos_of_ne_zero idle,
      (blank_theme_iff _).mp (Bool.eq_false_of_not_eq_true theme)⟩
  · rintro ⟨input, sessions, idle, theme⟩
    have filled := (blank_theme_iff _).mpr theme
    simp [validate, input.ne', sessions.ne', idle.ne', filled]

theorem checked_iff (settings accepted : Settings) :
    settings.checked = .ok accepted ↔ settings = accepted ∧ Sensible accepted := by
  rw [← validate_iff]
  cases valid : settings.validate with
  | ok _ =>
      simp only [checked, valid, Except.ok.injEq]
      exact ⟨fun same => ⟨same, same ▸ valid⟩, And.left⟩
  | error defect =>
      simp only [checked, valid, reduceCtorEq, false_iff]
      rintro ⟨rfl, valid'⟩
      rw [valid] at valid'
      cases valid'

-- What the place that counts has to say: the settings of a text, or the standard ones if there is nothing
-- and nothing has to be there.
inductive Told (files : String → Entry) (named home : Option String) : Settings → Prop where
  | text (source : Source) (first : Source.find? named home = some source) (bytes : List UInt8)
      (there : files source.path = .file bytes) (text : String)
      (decoded : Text.Utf8.decode bytes = .ok text) (settings : Settings)
      (read : parse text = .ok settings) : Told files named home settings
  | missing (source : Source) (first : Source.find? named home = some source)
      (absent : files source.path = .missing) (optional : source.required = false) : Told files named home {}
  | nowhere (none : Source.find? named home = none) : Told files named home {}

theorem of_bytes_iff (path : String) (bytes : List UInt8) (accepted : Settings) :
    ofBytes path bytes = .ok accepted ↔
      (∃ text, Text.Utf8.decode bytes = .ok text ∧ parse text = .ok accepted) ∧ Sensible accepted := by
  cases decoded : Text.Utf8.decode bytes with
  | error fault => simp [ofBytes, decoded]
  | ok text =>
      cases read : parse text with
      | error rejection => simp [ofBytes, decoded, read]
      | ok settings => simp [ofBytes, decoded, read, checked_iff]

theorem load_from_iff (files : String → Entry) (named home : Option String) (accepted : Settings) :
    loadFrom files named home = .ok accepted ↔ Told files named home accepted ∧ Sensible accepted := by
  constructor
  · intro loaded
    cases first : Source.find? named home with
    | none =>
        rw [loadFrom, first] at loaded
        obtain ⟨rfl, sensible⟩ := (checked_iff _ _).mp loaded
        exact ⟨.nowhere first, sensible⟩
    | some source =>
        rw [loadFrom, first] at loaded
        dsimp only [load] at loaded
        split at loaded
        · rename_i absent
          split at loaded
          · cases loaded
          rename_i optional
          obtain ⟨rfl, sensible⟩ := (checked_iff _ _).mp loaded
          exact ⟨.missing source first absent (by simpa using optional), sensible⟩
        · rename_i bytes there
          obtain ⟨⟨text, decoded, read⟩, sensible⟩ := (of_bytes_iff _ _ _).mp loaded
          exact ⟨.text source first bytes there text decoded accepted read, sensible⟩
        · cases loaded
  · rintro ⟨told, sensible⟩
    cases told with
    | text source first bytes there text decoded _ read =>
        simp only [loadFrom, first, load, there]
        exact (of_bytes_iff _ _ _).mpr ⟨⟨text, decoded, read⟩, sensible⟩
    | missing source first absent optional =>
        simp only [loadFrom, first, load, absent, optional]
        exact (checked_iff _ _).mpr ⟨rfl, sensible⟩
    | nowhere first =>
        simp only [loadFrom, first]
        exact (checked_iff _ _).mpr ⟨rfl, sensible⟩

def holding (text : String) : String → Entry := fun _ => .file (Text.Utf8.encode text)

theorem named_file_loaded (path text : String) (home : Option String) (settings : Settings)
    (read : parse text = .ok settings) (sensible : Sensible settings) :
    loadFrom (holding text) (some path) home = .ok settings := by
  apply (load_from_iff _ _ _ settings).mpr
  exact ⟨.text ⟨path, true⟩ rfl _ rfl text (Text.Utf8.decode_encode text) settings read, sensible⟩

structure Sized (settings : Settings) : Prop where
  input : settings.converter.inputLimit ≤ Http.greatestSize
  sessions : settings.server.sessions ≤ Http.greatestSize
  idle : settings.server.idleTimeout ≤ Http.greatestSize

theorem standard_sized : Sized {} := by
  constructor <;> decide

def ServerSized (s : ServerSettings) : Prop :=
  s.idleTimeout ≤ Http.greatestSize ∧ s.sessions ≤ Http.greatestSize

theorem server_sized (v : Value) (inText : InText v) (server : ServerSettings)
    (read : serverShape.read v.draft = .ok server) : ServerSized server := by
  refine serverShape.read_keeps ServerSized ?_ ⟨by decide, by decide⟩ v inText server read
  simp only [serverShape, List.forall_mem_cons]
  exact ⟨Json.of_keeps _ _ _ _ fun _ _ _ _ _ sized => sized,
    Json.of_keeps _ _ _ _ fun _ _ _ _ _ sized => sized,
    Json.of_keeps _ _ _ _ fun v n _ inText read sized => ⟨Json.size_in_text v _ n inText read, sized.2⟩,
    Json.of_keeps _ _ _ _ fun v n _ inText read sized => ⟨sized.1, Json.size_in_text v _ n inText read⟩,
    List.forall_mem_nil _⟩

theorem converter_sized (v : Value) (inText : InText v) (converter : ConverterSettings)
    (read : converterShape.read v.draft = .ok converter) : converter.inputLimit ≤ Http.greatestSize := by
  refine converterShape.read_keeps (fun s => s.inputLimit ≤ Http.greatestSize) ?_ (by decide) v inText
    converter read
  simp only [converterShape, List.forall_mem_cons]
  exact ⟨Json.of_keeps _ _ _ _ fun _ _ _ _ _ sized => sized,
    Json.of_keeps _ _ _ _ fun v n _ inText read _ => Json.size_in_text v _ n inText read,
    List.forall_mem_nil _⟩

theorem parse_sized (text : String) (settings : Settings) (read : parse text = .ok settings) :
    Sized settings := by
  obtain ⟨v, written⟩ := Json.Shape.read_text_written shape settings_whole text settings read
  rw [parse, Json.Shape.read_tree shape text v written] at read
  refine shape.read_keeps Sized ?_ standard_sized v (Json.whole_in_text text v written) settings read
  simp only [shape, List.forall_mem_cons]
  exact ⟨Json.of_keeps _ _ _ _ fun _ _ _ _ _ sized => sized,
    Json.of_keeps _ _ _ _ fun _ _ _ _ _ sized => sized,
    Json.of_keeps _ _ _ _ fun v server _ inText read sized =>
      have own := server_sized v inText server read
      ⟨sized.input, own.2, own.1⟩,
    Json.of_keeps _ _ _ _ fun v converter _ inText read sized =>
      ⟨converter_sized v inText converter read, sized.sessions, sized.idle⟩,
    Json.of_keeps _ _ _ _ fun _ _ _ _ _ sized => ⟨sized.input, sized.sessions, sized.idle⟩,
    List.forall_mem_nil _⟩

theorem told_sized (files : String → Entry) (named home : Option String) (settings : Settings)
    (told : Told files named home settings) : Sized settings := by
  cases told with
  | text _ _ _ _ text _ _ read => exact parse_sized text settings read
  | missing | nowhere => exact standard_sized

end MarkdownServer.Settings
