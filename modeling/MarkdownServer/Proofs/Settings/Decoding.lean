import Mathlib.Logic.Relation
import MarkdownServer.Proofs.Address.Reading
import MarkdownServer.Proofs.Json.Parts
import MarkdownServer.Settings.Format
/- Settings from the text of an object with an object for each section. Every setting is what the text says,
   or else the documented one, however the text is laid out. -/
set_option autoImplicit false

namespace MarkdownServer.Settings

open Json (Describes Draft Edit Fit Holds RecordPart Apt Shape Value WrittenText)

def IsText (v : Value) (s : String) : Prop := v = .text s

def IsOptionalText (v : Value) (t : Option String) : Prop :=
  v = .null ∧ t = none ∨ ∃ s, v = .text s ∧ t = some s

def IsSize (v : Value) (n : Nat) : Prop := v = .number (.integer n)

def IsAddress (v : Value) (address : Address) : Prop :=
  ∃ s, v = .text s ∧ Address.AddressText address s.toList

def IsTransport (v : Value) (transport : Transport) : Prop :=
  ∃ name, (name, transport) ∈ [("http", Transport.http), ("stdio", .stdio)] ∧
    (v = .text name ∨ v = .object [(name, .null)])

def IsRemark (v : Value) : Prop := ∃ t, IsOptionalText v t

def IsSection {σ : Type} (parts : List (RecordPart σ)) (v : Value) (settings : σ) : Prop :=
  ∃ members, v = .object members ∧ Holds parts members settings

def documented : Settings where
  server := {
    transport := .http
    address := .loopback 8080
    idleTimeout := 1800
    sessions := 1024 }
  converter := {
    theme := none
    inputLimit := 1048576 }
  logging := { level := "warn" }

def serverParts : List (RecordPart ServerSettings) :=
  [⟨"transport", Transport, IsTransport, documented.server.transport, fun s => s.transport⟩,
    ⟨"bind", Address, IsAddress, documented.server.address, fun s => s.address⟩,
    ⟨"session_idle_timeout_secs", Nat, IsSize, documented.server.idleTimeout, fun s => s.idleTimeout⟩,
    ⟨"max_sessions", Nat, IsSize, documented.server.sessions, fun s => s.sessions⟩]

def converterParts : List (RecordPart ConverterSettings) :=
  [⟨"default_theme", Option String, IsOptionalText, documented.converter.theme, fun s => s.theme⟩,
    ⟨"max_input_bytes", Nat, IsSize, documented.converter.inputLimit, fun s => s.inputLimit⟩]

def logParts : List (RecordPart LogSettings) :=
  [⟨"level", String, IsText, documented.logging.level, fun s => s.level⟩]

def remarkPart (name : String) : RecordPart Settings :=
  ⟨name, Unit, fun v _ => IsRemark v, (), fun _ => ()⟩

def serverPart : RecordPart Settings :=
  ⟨"server", ServerSettings, IsSection serverParts, documented.server, fun s => s.server⟩

def converterPart : RecordPart Settings :=
  ⟨"converter", ConverterSettings, IsSection converterParts, documented.converter, fun s => s.converter⟩

def logPart : RecordPart Settings :=
  ⟨"logging", LogSettings, IsSection logParts, documented.logging, fun s => s.logging⟩

def settingsParts : List (RecordPart Settings) :=
  [remarkPart "$schema", remarkPart "_comment", serverPart, converterPart, logPart]

theorem is_text_iff (v : Value) (s : String) : IsText v s ↔ v.draft.asText = .ok s :=
  (Json.as_text_iff v s).symm

theorem is_optional_text_iff (v : Value) (t : Option String) :
    IsOptionalText v t ↔ v.draft.asOptionalText = .ok t :=
  (Json.as_optional_text_iff v t).symm

theorem is_size_iff (expected : String) (v : Value) (n : Nat) :
    IsSize v n ↔ v.draft.asSize expected = .ok n :=
  (Json.as_size_iff v expected n).symm

theorem is_address_iff (v : Value) (address : Address) :
    IsAddress v address ↔
      v.draft.asParsed Address.parse? "socket address" "invalid socket address syntax" = .ok address := by
  simp only [IsAddress, Json.as_parsed_iff, Address.parse_address_iff]

theorem is_transport_iff (v : Value) (transport : Transport) :
    IsTransport v transport ↔ v.draft.asChoice transports = .ok transport := by
  simp only [IsTransport, Json.as_choice_iff, Json.choose_iff transports (by decide), and_comm]
  rfl

def Anything : String → Value → Prop := fun _ _ => True

theorem server_described : Describes serverParts Anything serverShape where
  names := rfl
  start := by simp only [serverParts, List.forall_mem_cons]; exact ⟨rfl, rfl, rfl, rfl, nofun⟩
  own := by
    simp only [serverParts, List.forall_mem_cons]
    exact ⟨⟨_, rfl, fun v _ => Json.of_own _ _ _ _ (fun _ _ => rfl) _ v (is_transport_iff v)⟩,
      ⟨_, rfl, fun v _ => Json.of_own _ _ _ _ (fun _ _ => rfl) _ v (is_address_iff v)⟩,
      ⟨_, rfl, fun v _ => Json.of_own _ _ _ _ (fun _ _ => rfl) _ v (is_size_iff _ v)⟩,
      ⟨_, rfl, fun v _ => Json.of_own _ _ _ _ (fun _ _ => rfl) _ v (is_size_iff _ v)⟩, nofun⟩
  other := by
    intro field listed part listed' apart
    simp only [serverShape, List.mem_cons, List.not_mem_nil, or_false] at listed
    simp only [serverParts, List.mem_cons, List.not_mem_nil, or_false] at listed'
    rcases listed with rfl | rfl | rfl | rfl <;> rcases listed' with rfl | rfl | rfl | rfl <;>
      first | exact absurd rfl apart | exact Json.of_other _ _ _ _ fun _ _ => rfl

theorem server_apt : Apt serverParts where
  distinct := by decide
  single := by
    simp only [serverParts, List.forall_mem_cons]
    exact ⟨Json.single_of_read _ _ is_transport_iff, Json.single_of_read _ _ is_address_iff,
      Json.single_of_read _ _ (is_size_iff ""), Json.single_of_read _ _ (is_size_iff ""), nofun⟩
  all := by
    rintro ⟨⟩ ⟨⟩ same
    simp only [serverParts, List.forall_mem_cons] at same
    obtain ⟨rfl, rfl, rfl, rfl, _⟩ := same
    rfl

theorem converter_described : Describes converterParts Anything converterShape where
  names := rfl
  start := by simp only [converterParts, List.forall_mem_cons]; exact ⟨rfl, rfl, nofun⟩
  own := by
    simp only [converterParts, List.forall_mem_cons]
    exact ⟨⟨_, rfl, fun v _ => Json.of_own _ _ _ _ (fun _ _ => rfl) _ v (is_optional_text_iff v)⟩,
      ⟨_, rfl, fun v _ => Json.of_own _ _ _ _ (fun _ _ => rfl) _ v (is_size_iff _ v)⟩, nofun⟩
  other := by
    intro field listed part listed' apart
    simp only [converterShape, List.mem_cons, List.not_mem_nil, or_false] at listed
    simp only [converterParts, List.mem_cons, List.not_mem_nil, or_false] at listed'
    rcases listed with rfl | rfl <;> rcases listed' with rfl | rfl <;>
      first | exact absurd rfl apart | exact Json.of_other _ _ _ _ fun _ _ => rfl

theorem converter_apt : Apt converterParts where
  distinct := by decide
  single := by
    simp only [converterParts, List.forall_mem_cons]
    exact ⟨Json.single_of_read _ _ is_optional_text_iff, Json.single_of_read _ _ (is_size_iff ""), nofun⟩
  all := by
    rintro ⟨⟩ ⟨⟩ same
    simp only [converterParts, List.forall_mem_cons] at same
    obtain ⟨rfl, rfl, _⟩ := same
    rfl

theorem log_described : Describes logParts Anything logShape where
  names := rfl
  start := by simp only [logParts, List.forall_mem_cons]; exact ⟨rfl, nofun⟩
  own := by
    simp only [logParts, List.forall_mem_cons]
    exact ⟨⟨_, rfl, fun v _ => Json.of_own _ _ _ _ (fun _ _ => rfl) _ v (is_text_iff v)⟩, nofun⟩
  other := by
    intro field listed part listed' apart
    cases List.mem_singleton.mp listed
    cases List.mem_singleton.mp listed'
    exact absurd rfl apart

theorem log_apt : Apt logParts where
  distinct := by decide
  single := by
    simp only [logParts, List.forall_mem_cons]
    exact ⟨Json.single_of_read _ _ is_text_iff, nofun⟩
  all := by
    rintro ⟨⟩ ⟨⟩ same
    simp only [logParts, List.forall_mem_cons] at same
    obtain ⟨rfl, _⟩ := same
    rfl

section
variable {σ : Type} {parts : List (RecordPart σ)} {shape : Shape σ}

theorem section_iff (described : Describes parts Anything shape) (apt : Apt parts) (v : Value)
    (object : ∃ members, v = .object members) (settings : σ) :
    IsSection parts v settings ↔ shape.read v.draft = .ok settings := by
  obtain ⟨members, rfl⟩ := object
  rw [Json.object_read_iff described apt members (fun _ _ => trivial)]
  constructor
  · rintro ⟨_, ⟨⟩, holds⟩
    exact holds
  · exact fun holds => ⟨members, rfl, holds⟩

theorem section_single (apt : Apt parts) (v : Value) (a b : σ) (first : IsSection parts v a)
    (second : IsSection parts v b) : a = b := by
  obtain ⟨members, rfl, holds⟩ := first
  obtain ⟨_, ⟨⟩, holds'⟩ := second
  exact Json.holds_unique parts apt members a b holds holds'

theorem section_some_iff (described : Describes parts Anything shape) (apt : Apt parts)
    (members : List (String × Value)) :
    (∃ settings, IsSection parts (.object members) settings) ↔ Fit parts members := by
  rw [← Json.object_fit_iff described members (fun _ _ => trivial)]
  exact exists_congr fun settings => section_iff described apt _ ⟨members, rfl⟩ settings

end

theorem empty_section {σ : Type} (parts : List (RecordPart σ)) (settings : σ)
    (standard : ∀ part ∈ parts, part.get settings = part.standard) :
    IsSection parts (.object []) settings := by
  refine ⟨[], rfl, ⟨List.nodup_nil, nofun⟩, fun part listed => ?_⟩
  rw [standard part listed]
  exact .left List.not_mem_nil

theorem server_empty : IsSection serverParts (.object []) documented.server :=
  empty_section _ _ (by simp [serverParts])

theorem converter_empty : IsSection converterParts (.object []) documented.converter :=
  empty_section _ _ (by simp [converterParts])

theorem log_empty : IsSection logParts (.object []) documented.logging :=
  empty_section _ _ (by simp [logParts])

def sections : List String := ["server", "converter", "logging"]

def Sectioned (members : List (String × Value)) : Prop :=
  ∀ m ∈ members, m.1 ∈ sections → ∃ inner, m.2 = .object inner

theorem remark_own (name : String) (v : Value) (settings : Settings) (a : Unit) :
    IsRemark v ↔ ∃ next, (remark name).read v.draft settings = .ok next ∧ () = a := by
  simp only [IsRemark, is_optional_text_iff, and_true]
  constructor
  · rintro ⟨t, read⟩
    exact ⟨settings, congrArg (Except.map _) read⟩
  · rintro ⟨next, read⟩
    obtain ⟨t, read, _⟩ := Json.map_ok _ _ _ read
    exact ⟨t, read⟩

theorem settings_described :
    Describes settingsParts (fun name v => name ∈ sections → ∃ inner, v = .object inner) shape where
  names := rfl
  start := by simp only [settingsParts, List.forall_mem_cons]; exact ⟨rfl, rfl, rfl, rfl, rfl, nofun⟩
  own := by
    simp only [settingsParts, List.forall_mem_cons]
    exact ⟨⟨_, rfl, fun v _ => remark_own _ v⟩, ⟨_, rfl, fun v _ => remark_own _ v⟩,
      ⟨_, rfl, fun v object => Json.of_own _ _ _ _ (fun _ _ => rfl) _ v
        (section_iff server_described server_apt v (object (by decide)))⟩,
      ⟨_, rfl, fun v object => Json.of_own _ _ _ _ (fun _ _ => rfl) _ v
        (section_iff converter_described converter_apt v (object (by decide)))⟩,
      ⟨_, rfl, fun v object => Json.of_own _ _ _ _ (fun _ _ => rfl) _ v
        (section_iff log_described log_apt v (object (by decide)))⟩, nofun⟩
  other := by
    intro field listed part listed' apart
    simp only [shape, List.mem_cons, List.not_mem_nil, or_false] at listed
    simp only [settingsParts, List.mem_cons, List.not_mem_nil, or_false] at listed'
    rcases listed with rfl | rfl | rfl | rfl | rfl <;> rcases listed' with rfl | rfl | rfl | rfl | rfl <;>
      first | exact absurd rfl apart | exact Json.of_other _ _ _ _ fun _ _ => rfl

theorem settings_apt : Apt settingsParts where
  distinct := by decide
  single := by
    simp only [settingsParts, List.forall_mem_cons]
    exact ⟨fun _ _ _ _ _ => rfl, fun _ _ _ _ _ => rfl, section_single server_apt,
      section_single converter_apt, section_single log_apt, nofun⟩
  all := by
    rintro ⟨⟩ ⟨⟩ same
    simp only [settingsParts, List.forall_mem_cons] at same
    obtain ⟨_, _, rfl, rfl, rfl, _⟩ := same
    rfl

-- At each of the four levels the names are known, none is there twice, and each value is of the type of
-- its name. For a section, `Fit` has all of this.
structure Levels (members : List (String × Value)) : Prop where
  known : ∀ m ∈ members, m.1 ∈ ["$schema", "_comment", "server", "converter", "logging"]
  once : (members.map Prod.fst).Nodup
  remarks : ∀ m ∈ members, m.1 ∈ ["$schema", "_comment"] → IsRemark m.2
  server : ∀ inner, ("server", Value.object inner) ∈ members → Fit serverParts inner
  converter : ∀ inner, ("converter", Value.object inner) ∈ members → Fit converterParts inner
  logging : ∀ inner, ("logging", Value.object inner) ∈ members → Fit logParts inner

theorem levels_iff (members : List (String × Value)) (sectioned : Sectioned members) :
    Fit settingsParts members ↔ Levels members := by
  constructor
  · intro fit
    have given := Json.fit_gives settingsParts settings_apt members fit
    constructor
    case known =>
      intro m member
      obtain ⟨part, listed, same, _⟩ := fit.gives m member
      exact same ▸ List.mem_map_of_mem (f := RecordPart.name) listed
    case once => exact fit.once
    case remarks =>
      rintro ⟨name, v⟩ member named
      simp only [List.mem_cons, List.not_mem_nil, or_false] at named
      obtain rfl | rfl := named
      · exact (given (remarkPart "$schema") (by simp [settingsParts]) v member).choose_spec
      · exact (given (remarkPart "_comment") (by simp [settingsParts]) v member).choose_spec
    case server =>
      intro inner told
      exact (section_some_iff server_described server_apt inner).mp
        (given serverPart (by simp [settingsParts]) _ told)
    case converter =>
      intro inner told
      exact (section_some_iff converter_described converter_apt inner).mp
        (given converterPart (by simp [settingsParts]) _ told)
    case logging =>
      intro inner told
      exact (section_some_iff log_described log_apt inner).mp
        (given logPart (by simp [settingsParts]) _ told)
  · intro levels
    refine ⟨levels.once, ?_⟩
    rintro ⟨name, v⟩ member
    have known := levels.known _ member
    simp only [List.mem_cons, List.not_mem_nil, or_false] at known
    obtain rfl | rfl | rfl | rfl | rfl := known
    · exact ⟨remarkPart "$schema", by simp [settingsParts], rfl, (), levels.remarks _ member (by simp)⟩
    · exact ⟨remarkPart "_comment", by simp [settingsParts], rfl, (), levels.remarks _ member (by simp)⟩
    · obtain ⟨inner, rfl⟩ := sectioned _ member (show "server" ∈ sections by decide)
      exact ⟨serverPart, by simp [settingsParts], rfl,
        (section_some_iff server_described server_apt inner).mpr (levels.server inner member)⟩
    · obtain ⟨inner, rfl⟩ := sectioned _ member (show "converter" ∈ sections by decide)
      exact ⟨converterPart, by simp [settingsParts], rfl,
        (section_some_iff converter_described converter_apt inner).mpr (levels.converter inner member)⟩
    · obtain ⟨inner, rfl⟩ := sectioned _ member (show "logging" ∈ sections by decide)
      exact ⟨logPart, by simp [settingsParts], rfl,
        (section_some_iff log_described log_apt inner).mpr (levels.logging inner member)⟩

inductive Rearranged : List (String × Value) → List (String × Value) → Prop where
  | whole (members others : List (String × Value)) (edit : Edit settingsParts members others) :
      Rearranged members others
  | server (front back inner others : List (String × Value)) (edit : Edit serverParts inner others) :
      Rearranged (front ++ ("server", .object inner) :: back) (front ++ ("server", .object others) :: back)
  | converter (front back inner others : List (String × Value)) (edit : Edit converterParts inner others) :
      Rearranged (front ++ ("converter", .object inner) :: back)
        (front ++ ("converter", .object others) :: back)
  | logging (front back inner others : List (String × Value)) (edit : Edit logParts inner others) :
      Rearranged (front ++ ("logging", .object inner) :: back)
        (front ++ ("logging", .object others) :: back)

theorem section_edited {σ : Type} {parts : List (RecordPart σ)} (apt : Apt parts)
    (inner others : List (String × Value)) (edit : Edit parts inner others) (settings : σ) :
    IsSection parts (.object inner) settings ↔ IsSection parts (.object others) settings := by
  have same := Json.edit_holds parts apt inner others edit settings
  constructor
  · rintro ⟨_, ⟨⟩, holds⟩
    exact ⟨others, rfl, same.mp holds⟩
  · rintro ⟨_, ⟨⟩, holds⟩
    exact ⟨inner, rfl, same.mpr holds⟩

theorem rearranged_holds (members others : List (String × Value)) (step : Rearranged members others)
    (settings : Settings) : Holds settingsParts members settings ↔ Holds settingsParts others settings := by
  have within := Json.holds_within_iff settingsParts settings_apt
  cases step with
  | whole _ _ edit => exact Json.edit_holds settingsParts settings_apt members others edit settings
  | server front back inner others edit =>
      exact within serverPart (by simp [settingsParts]) front back _ _
        (section_edited server_apt inner others edit) settings
  | converter front back inner others edit =>
      exact within converterPart (by simp [settingsParts]) front back _ _
        (section_edited converter_apt inner others edit) settings
  | logging front back inner others edit =>
      exact within logPart (by simp [settingsParts]) front back _ _
        (section_edited log_apt inner others edit) settings

theorem sectioned_within (front back inner others : List (String × Value)) (name : String)
    (sectioned : Sectioned (front ++ (name, .object inner) :: back)) :
    Sectioned (front ++ (name, .object others) :: back) := by
  intro m member named
  rcases Json.stays_within front back name _ (.object inner) m member with rfl | elsewhere
  · exact ⟨others, rfl⟩
  · exact sectioned m elsewhere named

theorem edit_sectioned (members others : List (String × Value)) (edit : Edit settingsParts members others) :
    Sectioned members ↔ Sectioned others := by
  cases edit with
  | moved _ same => exact forall_congr' fun m => by rw [same.mem_iff]
  | told part listed v standard absent =>
      constructor
      · rintro sectioned m (_ | ⟨_, later⟩) named
        · simp only [settingsParts, List.mem_cons, List.not_mem_nil, or_false] at listed
          obtain rfl | rfl | rfl | rfl | rfl := listed
          · exact absurd named (show "$schema" ∉ sections by decide)
          · exact absurd named (show "_comment" ∉ sections by decide)
          all_goals
            obtain ⟨inner, rfl, _⟩ := standard
            exact ⟨inner, rfl⟩
        · exact sectioned m later named
      · exact fun sectioned m later => sectioned m (List.mem_cons_of_mem _ later)

theorem rearranged_sectioned (members others : List (String × Value)) (step : Rearranged members others) :
    Sectioned members ↔ Sectioned others := by
  cases step with
  | whole _ _ edit => exact edit_sectioned members others edit
  | server | converter | logging => exact ⟨sectioned_within _ _ _ _ _, sectioned_within _ _ _ _ _⟩

structure Alike (members others : List (String × Value)) : Prop where
  sectioned : Sectioned members ↔ Sectioned others
  holds : ∀ settings, Holds settingsParts members settings ↔ Holds settingsParts others settings

theorem layouts_alike (members others : List (String × Value))
    (same : Relation.EqvGen Rearranged members others) : Alike members others := by
  induction same with
  | rel members others step =>
      exact ⟨rearranged_sectioned members others step, rearranged_holds members others step⟩
  | refl => exact ⟨Iff.rfl, fun _ => Iff.rfl⟩
  | symm _ _ _ ih => exact ⟨ih.sectioned.symm, fun settings => (ih.holds settings).symm⟩
  | trans _ _ _ _ _ first second =>
      exact ⟨first.sectioned.trans second.sectioned,
        fun settings => (first.holds settings).trans (second.holds settings)⟩

theorem settings_whole : Json.Whole shape.read := by
  have server : Json.Whole serverShape.read := by
    apply Shape.read_whole
    simp only [serverShape, List.forall_mem_cons]
    exact ⟨Shape.of_whole _ _ _ (Json.as_choice_whole _), Shape.of_whole _ _ _ (Json.as_parsed_whole _ _ _),
      Shape.of_whole _ _ _ (Json.as_size_whole _), Shape.of_whole _ _ _ (Json.as_size_whole _), nofun⟩
  have converter : Json.Whole converterShape.read := by
    apply Shape.read_whole
    simp only [converterShape, List.forall_mem_cons]
    exact ⟨Shape.of_whole _ _ _ Json.as_optional_text_whole,
      Shape.of_whole _ _ _ (Json.as_size_whole _), nofun⟩
  have logging : Json.Whole logShape.read := by
    apply Shape.read_whole
    simp only [logShape, List.forall_mem_cons]
    exact ⟨Shape.of_whole _ _ _ Json.as_text_whole, nofun⟩
  apply Shape.read_whole
  simp only [shape, List.forall_mem_cons]
  exact ⟨Shape.of_whole _ _ _ Json.as_optional_text_whole, Shape.of_whole _ _ _ Json.as_optional_text_whole,
    Shape.of_whole _ _ _ server, Shape.of_whole _ _ _ converter, Shape.of_whole _ _ _ logging, nofun⟩

structure Bare (members : List (String × Value)) : Prop where
  once : (members.map Prod.fst).Nodup
  empty : ∀ m ∈ members, m.1 ∈ sections ∧ m.2 = .object []

theorem bare_holds (members : List (String × Value)) (bare : Bare members) :
    Holds settingsParts members {} := by
  have given (part : RecordPart Settings) (listed : part ∈ settingsParts) (named : part.name ∈ sections) :
      part.gives (.object []) (part.get {}) := by
    simp only [settingsParts, List.mem_cons, List.not_mem_nil, or_false] at listed
    obtain rfl | rfl | rfl | rfl | rfl := listed
    · exact absurd named (show "$schema" ∉ sections by decide)
    · exact absurd named (show "_comment" ∉ sections by decide)
    · exact server_empty
    · exact converter_empty
    · exact log_empty
  have standard : ∀ part ∈ settingsParts, part.get {} = part.standard := by
    simp only [settingsParts, List.forall_mem_cons]
    exact ⟨rfl, rfl, rfl, rfl, rfl, nofun⟩
  refine ⟨⟨bare.once, fun m member => ?_⟩, fun part listed => ?_⟩
  · obtain ⟨named, empty⟩ := bare.empty m member
    have known : sections ⊆ settingsParts.map RecordPart.name := by decide
    obtain ⟨part, listed, same⟩ := List.mem_map.mp (known named)
    exact ⟨part, listed, same, _, empty ▸ given part listed (same ▸ named)⟩
  · by_cases told : part.name ∈ members.map Prod.fst
    · obtain ⟨m, member, same⟩ := List.mem_map.mp told
      obtain ⟨named, empty⟩ := bare.empty m member
      refine .told m.2 _ (same ▸ member) ?_
      rw [empty]
      exact given part listed (same ▸ named)
    · rw [standard part listed]
      exact .left told

-- What becomes of a text. Only JSON is decoded at all; the rest is about an object whose sections are
-- objects. `layout` speaks of results, for of several faults it is the first in the text that is told.
structure Decoded (text : String) : Prop where
  json : ∀ settings, parse text = .ok settings → ∃ v, WrittenText v text.toList
  levels : ∀ members, WrittenText (.object members) text.toList → Sectioned members →
    ((∃ settings, parse text = .ok settings) ↔ Levels members)
  settings : ∀ members, WrittenText (.object members) text.toList → Sectioned members →
    ∀ settings, parse text = .ok settings ↔ Holds settingsParts members settings
  layout : ∀ members, WrittenText (.object members) text.toList → Sectioned members →
    ∀ other others, WrittenText (.object others) (String.toList other) →
      Relation.EqvGen Rearranged members others →
        ∀ settings, parse text = .ok settings ↔ parse other = .ok settings
  bare : ∀ members, WrittenText (.object members) text.toList → Bare members → parse text = .ok {}

theorem tree_fit_iff (text : String) (members : List (String × Value))
    (written : WrittenText (.object members) text.toList) (sectioned : Sectioned members) :
    (∃ settings, parse text = .ok settings) ↔ Fit settingsParts members := by
  rw [← Json.object_fit_iff settings_described members sectioned, parse,
    Shape.read_tree shape text _ written]

theorem tree_read_iff (text : String) (members : List (String × Value))
    (written : WrittenText (.object members) text.toList) (sectioned : Sectioned members)
    (settings : Settings) : parse text = .ok settings ↔ Holds settingsParts members settings := by
  rw [← Json.object_read_iff settings_described settings_apt members sectioned, parse,
    Shape.read_tree shape text _ written]

theorem settings_decoded (text : String) : Decoded text where
  json := Shape.read_text_written shape settings_whole text
  levels members written sectioned :=
    (tree_fit_iff text members written sectioned).trans (levels_iff members sectioned)
  settings := tree_read_iff text
  layout := by
    intro members written sectioned other others written' same settings
    have alike := layouts_alike members others same
    rw [tree_read_iff text members written sectioned,
      tree_read_iff other others written' (alike.sectioned.mp sectioned)]
    exact alike.holds settings
  bare := by
    intro members written bare
    have sectioned : Sectioned members := fun m member _ => ⟨[], (bare.empty m member).2⟩
    exact (tree_read_iff text members written sectioned {}).mpr (bare_holds members bare)

example :
    (parse "\x7b\"server\": \x7b\"transport\": \x7b\"stdio\": null\x7d\x7d, \"logging\": \x7b\x7d\x7d").toOption =
      some { server := { transport := .stdio } } := by decide +kernel

end MarkdownServer.Settings
