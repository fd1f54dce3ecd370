import MarkdownServer.Proofs.Json.Conformance
import MarkdownServer.Proofs.Tools.Registration
import MarkdownServer.Proofs.Tools.Results
/- The schemas that the tools of this server declare. Arguments that conform are never refused, all
   others are, and what a call gives conforms to what its tool says of its output. -/
set_option autoImplicit false

namespace MarkdownServer.Tools

open Json (Schema Value admits lookup?)

def withoutNull (name : String) : Value → Value
  | .object members =>
    if (lookup? name members).any Value.isNull then .object (members.filter fun m => m.1 != name)
    else .object members
  | v => v

theorem lookup_filter_other (name other : String) (members : List (String × Value))
    (different : name ≠ other) :
    lookup? name (members.filter fun m => m.1 != other) = lookup? name members := by
  induction members with
  | nil => rfl
  | cons m members ih =>
      by_cases removed : m.1 = other
      · have further : m.1 ≠ name := fun same => different (same.symm.trans removed)
        rw [List.filter_cons_of_neg (by simp [removed]), ih, Json.lookup_cons, if_neg further]
      · rw [List.filter_cons_of_pos (by simp [removed]), Json.lookup_cons, Json.lookup_cons, ih]

theorem without_null_object (name : String) (members : List (String × Value)) :
    ∃ kept, withoutNull name (.object members) = .object kept ∧
      lookup? name kept = (lookup? name members).filter (fun w => !w.isNull) ∧
      ∀ other, other ≠ name → lookup? other kept = lookup? other members := by
  by_cases blank : (lookup? name members).any Value.isNull = true
  · refine ⟨members.filter fun m => m.1 != name, by rw [withoutNull, if_pos blank], ?_, ?_⟩
    · cases found : lookup? name members with
      | none => simp [found] at blank
      | some w =>
          have isNull : w.isNull = true := by simpa [found] using blank
          rw [Option.filter_some, isNull]
          simp [lookup?]
    · exact fun other different => lookup_filter_other other name members different
  · refine ⟨members, by rw [withoutNull, if_neg blank], ?_, fun _ _ => rfl⟩
    cases found : lookup? name members with
    | none => rfl
    | some w =>
        have kept : w.isNull = false := by simpa [found] using blank
        rw [Option.filter_some, kept]
        rfl

theorem required_without_null (name other : String) (members : List (String × Value))
    (different : name ≠ other) :
    requiredText (withoutNull other (.object members)) name = requiredText (.object members) name := by
  obtain ⟨kept, whole, _, elsewhere⟩ := without_null_object other members
  rw [whole]
  simp only [requiredText, Value.member?, elsewhere name different]

theorem optional_without_null (name : String) (members : List (String × Value)) :
    optionalText (withoutNull name (.object members)) name = optionalText (.object members) name := by
  obtain ⟨kept, whole, here, _⟩ := without_null_object name members
  rw [whole]
  simp only [optionalText, Value.member?, here]
  cases lookup? name members with
  | none => rfl
  | some w => cases w <;> rfl

theorem required_text_cases (members : List (String × Value)) (name : String) :
    (∃ s, lookup? name members = some (.text s) ∧ requiredText (.object members) name = .ok s) ∨
      (∃ message, requiredText (.object members) name = .error (.invalidArguments message)) ∧
        ∀ s, lookup? name members ≠ some (.text s) := by
  simp only [requiredText, Value.member?]
  cases found : lookup? name members with
  | none => exact .inr ⟨⟨_, rfl⟩, fun s same => absurd same.symm (Option.some_ne_none _)⟩
  | some w =>
      cases w with
      | text s => exact .inl ⟨s, rfl, rfl⟩
      | _ =>
          refine .inr ⟨⟨_, rfl⟩, fun s same => ?_⟩
          cases same

theorem optional_text_cases (members : List (String × Value)) (name : String) :
    (∃ read, optionalText (.object members) name = .ok read) ∧
        (∀ w, lookup? name members = some w → w = .null ∨ ∃ s, w = .text s) ∨
      (∃ message, optionalText (.object members) name = .error (.invalidArguments message)) ∧
        ∃ w, lookup? name members = some w ∧ ∀ s, w ≠ .text s := by
  simp only [optionalText, Value.member?]
  cases found : lookup? name members with
  | none => exact .inl ⟨⟨none, rfl⟩, fun w same => absurd same.symm (Option.some_ne_none _)⟩
  | some w =>
      cases w with
      | text s => exact .inl ⟨⟨some s, rfl⟩, fun _ same => .inr ⟨s, (Option.some.inj same).symm⟩⟩
      | null => exact .inl ⟨⟨none, rfl⟩, fun _ same => .inl (Option.some.inj same).symm⟩
      | _ =>
          refine .inr ⟨⟨_, rfl⟩, _, rfl, fun s same => ?_⟩
          cases same

theorem text_required_iff (name : String) (description : Option String) (members : List (String × Value)) :
    ((∀ w, lookup? name members = some w → admits (Schema.text description).toValue w = true) ∧
      (lookup? name members).isSome = true) ↔ ∃ s, lookup? name members = some (.text s) := by
  simp only [Json.admits_text_iff]
  constructor
  · rintro ⟨declared, present⟩
    obtain ⟨w, found⟩ := Option.isSome_iff_exists.mp present
    obtain ⟨s, rfl⟩ := declared w found
    exact ⟨s, found⟩
  · rintro ⟨s, found⟩
    refine ⟨fun w same => ⟨s, ?_⟩, by rw [found]; rfl⟩
    rw [found] at same
    exact (Option.some.inj same).symm

theorem admits_required_iff (name : String) (description : Option String)
    (members : List (String × Value)) :
    admits (Schema.object [(name, .text description)] [name]).toValue (.object members) = true ↔
      ∃ s, lookup? name members = some (.text s) := by
  have distinct : ([(name, Schema.text description)].map Prod.fst).Nodup := List.nodup_singleton name
  rw [Json.admits_object_iff _ _ _ distinct, ← text_required_iff name description]
  constructor
  · rintro ⟨_, ⟨⟩, declared, present⟩
    exact ⟨declared _ (List.mem_singleton_self _), present _ (List.mem_singleton_self _)⟩
  · rintro ⟨declared, present⟩
    exact ⟨members, rfl, List.forall_mem_singleton.mpr declared, List.forall_mem_singleton.mpr present⟩

theorem admits_themed_iff (name : String) (description : Option String)
    (members : List (String × Value)) (different : name ≠ "theme") :
    admits (Schema.object [(name, .text description), themeProperty] [name]).toValue
        (.object members) = true ↔
      (∃ s, lookup? name members = some (.text s)) ∧
        ∀ w, lookup? "theme" members = some w → ∃ s, w = .text s := by
  have distinct : ([(name, Schema.text description), themeProperty].map Prod.fst).Nodup := by
    simpa [themeProperty] using different
  have themed (w : Value) : admits themeProperty.2.toValue w = true ↔ ∃ s, w = .text s :=
    Json.admits_text_iff _ w
  rw [Json.admits_object_iff _ _ _ distinct, ← text_required_iff name description]
  constructor
  · rintro ⟨_, ⟨⟩, declared, present⟩
    obtain ⟨first, second⟩ := List.forall_mem_cons.mp declared
    refine ⟨⟨first, present _ (List.mem_singleton_self _)⟩, fun w found => ?_⟩
    exact (themed w).mp (List.forall_mem_singleton.mp second w found)
  · rintro ⟨⟨first, present⟩, texts⟩
    refine ⟨members, rfl, List.forall_mem_cons.mpr ⟨first, ?_⟩, List.forall_mem_singleton.mpr present⟩
    exact List.forall_mem_singleton.mpr fun w found => (themed w).mpr (texts w found)

theorem admits_anything (members : List (String × Value)) :
    admits (Schema.object [] []).toValue (.object members) = true :=
  (Json.admits_object_iff [] [] _ List.nodup_nil).mpr
    ⟨members, rfl, List.forall_mem_nil _, List.forall_mem_nil _⟩

/- Handlers that read their arguments against a schema and go on with what they read -/

def Late {α : Type} (outcome : Except Fault α) : Prop :=
  ∀ message, outcome ≠ .error (.invalidArguments message)

structure Reads {α : Type} (schema : Value) (read : Value → Except Fault α) : Prop where
  absent : ∀ members, read (withoutNull "theme" (.object members)) = read (.object members)
  accepted : ∀ members, admits schema (.object members) = true → Late (read (.object members))
  conforming : ∀ members a, read (.object members) = .ok a → lookup? "theme" members ≠ some .null →
    admits schema (.object members) = true

def readChoice {α : Type} (name : String) (choose : String → Except Fault α) (arguments : Value) :
    Except Fault α :=
  requiredText arguments name >>= choose

def readThemed {α : Type} (name : String) (choose : String → Except Fault α) (arguments : Value) :
    Except Fault (α × Option String) := do
  return (← readChoice name choose arguments, ← optionalText arguments "theme")

theorem choice_without_null {α : Type} (name : String) (choose : String → Except Fault α)
    (members : List (String × Value)) (different : name ≠ "theme") :
    readChoice name choose (withoutNull "theme" (.object members)) =
      readChoice name choose (.object members) := by
  rw [readChoice, required_without_null name "theme" members different, readChoice]

theorem choice_read {α : Type} (name : String) (choose : String → Except Fault α)
    (members : List (String × Value)) (a : α) (read : readChoice name choose (.object members) = .ok a) :
    ∃ s, lookup? name members = some (.text s) := by
  rcases required_text_cases members name with ⟨s, found, _⟩ | ⟨⟨message, failed⟩, _⟩
  · exact ⟨s, found⟩
  · rw [readChoice, failed] at read
    cases read

theorem choice_late {α : Type} (name s : String) (choose : String → Except Fault α)
    (members : List (String × Value)) (late : ∀ s, Late (choose s))
    (found : lookup? name members = some (.text s)) : Late (readChoice name choose (.object members)) := by
  rcases required_text_cases members name with ⟨t, _, read⟩ | ⟨_, absent⟩
  · rw [readChoice, read]
    exact late t
  · exact absurd found (absent s)

theorem reads_choice {α : Type} (name : String) (description : Option String)
    (choose : String → Except Fault α) (different : name ≠ "theme") (late : ∀ s, Late (choose s)) :
    Reads (Schema.object [(name, .text description)] [name]).toValue (readChoice name choose) where
  absent := fun members => choice_without_null name choose members different
  accepted := by
    intro members admitted
    obtain ⟨s, found⟩ := (admits_required_iff name description members).mp admitted
    exact choice_late name s choose members late found
  conforming := fun members a read _ =>
    (admits_required_iff name description members).mpr (choice_read name choose members a read)

theorem reads_themed {α : Type} (name : String) (description : Option String)
    (choose : String → Except Fault α) (different : name ≠ "theme") (late : ∀ s, Late (choose s)) :
    Reads (Schema.object [(name, .text description), themeProperty] [name]).toValue
      (readThemed name choose) where
  absent := by
    intro members
    rw [readThemed, choice_without_null name choose members different, optional_without_null, readThemed]
  accepted := by
    intro members admitted message failed
    obtain ⟨⟨s, found⟩, texts⟩ := (admits_themed_iff name description members different).mp admitted
    have chosen := choice_late name s choose members late found
    rw [readThemed] at failed
    cases first : readChoice name choose (.object members) with
    | error fault =>
        rw [first] at failed
        cases failed
        exact chosen message first
    | ok a =>
        rcases optional_text_cases members "theme" with ⟨⟨theme, read⟩, _⟩ | ⟨_, w, present, other⟩
        · rw [first, read] at failed
          cases failed
        · obtain ⟨t, same⟩ := texts w present
          exact other t same
  conforming := by
    intro members a read notNull
    rw [readThemed] at read
    cases first : readChoice name choose (.object members) with
    | error fault =>
        rw [first] at read
        cases read
    | ok b =>
        refine (admits_themed_iff name description members different).mpr
          ⟨choice_read name choose members b first, fun w found => ?_⟩
        rcases optional_text_cases members "theme" with ⟨_, texts⟩ | ⟨⟨message, failed⟩, _⟩
        · rcases texts w found with rfl | text
          · exact absurd found notNull
          · exact text
        · rw [first, failed] at read
          cases read

def Output.Declared (schema : Option Value) : Output → Prop
  | .text _ => schema = none
  | .json v => ∃ declared, schema = some declared ∧ admits declared v = true

-- The outcome of a call against the schemas of its tool. A theme that is null counts as absent.
structure Kept (tool : Tool) (arguments : Value) : Prop where
  conforming : admits tool.descriptor.inputSchema arguments = true → Late (tool.run arguments).result
  nullTheme : admits tool.descriptor.inputSchema (withoutNull "theme" arguments) = true →
    Late (tool.run arguments).result
  refused : admits tool.descriptor.inputSchema (withoutNull "theme" arguments) = false →
    ∃ fault, (tool.run arguments).result = .error fault
  absent : (tool.run (withoutNull "theme" arguments)).result = (tool.run arguments).result
  output : ∀ output, (tool.run arguments).result = .ok output →
    output.Declared tool.descriptor.outputSchema

theorem kept_of_reads {α : Type} (tool : Tool) (read : Value → Except Fault α)
    (finish : α → Except Fault Output) (members : List (String × Value))
    (reads : Reads tool.descriptor.inputSchema read)
    (run : ∀ arguments, (tool.run arguments).result = read arguments >>= finish)
    (late : ∀ a, Late (finish a))
    (declared : ∀ a output, finish a = .ok output → output.Declared tool.descriptor.outputSchema) :
    Kept tool (.object members) := by
  obtain ⟨kept, whole, here, _⟩ := without_null_object "theme" members
  have absent : (tool.run (withoutNull "theme" (.object members))).result =
      (tool.run (.object members)).result := by
    rw [run, run, reads.absent]
  have accepted (given : List (String × Value))
      (admitted : admits tool.descriptor.inputSchema (.object given) = true) :
      Late (tool.run (.object given)).result := by
    intro message failed
    rw [run] at failed
    cases first : read (.object given) with
    | error fault =>
        rw [first] at failed
        cases failed
        exact reads.accepted given admitted message first
    | ok a =>
        rw [first] at failed
        exact late a message failed
  constructor
  case conforming => exact accepted members
  case nullTheme =>
    intro admitted
    rw [← absent, whole]
    exact accepted kept (whole ▸ admitted)
  case refused =>
    intro unfit
    have notNull : lookup? "theme" kept ≠ some .null := by
      rw [here]
      intro found
      simpa [Value.isNull] using (Option.filter_eq_some_iff.mp found).2
    rw [whole] at absent unfit
    rw [← absent, run]
    cases first : read (.object kept) with
    | error fault => exact ⟨fault, rfl⟩
    | ok a => simp [reads.conforming kept a first notNull] at unfit
  case absent => exact absent
  case output =>
    intro output finished
    rw [run] at finished
    cases first : read (.object members) with
    | error fault =>
        rw [first] at finished
        cases finished
    | ok a =>
        rw [first] at finished
        exact declared a output finished

theorem texts_admitted (fields : List (String × String)) (distinct : (fields.map Prod.fst).Nodup) :
    admits (Schema.object (fields.map fun field => plainText field.1) (fields.map Prod.fst)).toValue
      (.ofMembers (fields.map fun field => (field.1, .text field.2))) = true := by
  have names : ((fields.map fun field => plainText field.1).map Prod.fst).Nodup := by
    rw [List.map_map]
    exact distinct
  have apart : ((fields.map fun field => (field.1, Value.text field.2)).map Prod.fst).Nodup := by
    rw [List.map_map]
    exact distinct
  obtain ⟨gathered, whole, same⟩ := Json.of_members_perm _ apart
  refine (Json.admits_object_iff _ _ _ names).mpr ⟨gathered, whole, ?_, ?_⟩
  · intro property listed w found
    obtain ⟨field, _, rfl⟩ := List.mem_map.mp listed
    obtain ⟨member, held, rfl⟩ := Option.map_eq_some_iff.mp found
    obtain ⟨given, _, rfl⟩ := List.mem_map.mp (same.mem_iff.mp (List.mem_of_find?_eq_some held))
    exact (Json.admits_text_iff none _).mpr ⟨given.2, rfl⟩
  · intro name listed
    obtain ⟨field, given, rfl⟩ := List.mem_map.mp listed
    have held := same.mem_iff.mpr (List.mem_map_of_mem given)
    rw [lookup?, Option.isSome_map, List.find?_isSome]
    exact ⟨_, held, beq_self_eq_true _⟩

theorem get_template_admitted (t : Templates.Template) :
    admits (Schema.object [plainText "id", plainText "name", plainText "description", plainText "content"]
      ["id", "name", "description", "content"]).toValue (templateValue t).sorted = true :=
  texts_admitted [("id", t.id), ("name", t.name), ("description", t.description), ("content", t.content)]
    (show ["id", "name", "description", "content"].Nodup by decide)

theorem converted_template_admitted (t : Templates.Template) (page : String) :
    admits (Schema.object [plainText "id", plainText "name", plainText "confluenceMarkup"]
      ["id", "name", "confluenceMarkup"]).toValue (convertedTemplate t page).sorted = true :=
  texts_admitted [("id", t.id), ("name", t.name), ("confluenceMarkup", page)]
    (show ["id", "name", "confluenceMarkup"].Nodup by decide)

theorem template_summary_admitted (t : Templates.Template) :
    admits (Schema.object [plainText "id", plainText "name", plainText "description"]
      ["id", "name", "description"]).toValue (Value.object (templateSummary t)).sorted = true :=
  texts_admitted [("id", t.id), ("name", t.name), ("description", t.description)]
    (show ["id", "name", "description"].Nodup by decide)

theorem template_list_admitted (templates : List Templates.Template) :
    admits (Schema.object
      [("templates", .array (.object [plainText "id", plainText "name", plainText "description"]
        ["id", "name", "description"]))] ["templates"]).toValue
      (Value.object [("templates", .array (templates.map fun t => .object (templateSummary t)))]).sorted
        = true := by
  rw [Json.sorted_object _ (List.pairwise_singleton _ _), List.map_singleton, Value.sorted,
    Json.sorted_items_map, List.map_map]
  refine (Json.admits_object_iff [_] _ _ (List.nodup_singleton _)).mpr ⟨_, rfl, ?_, ?_⟩
  · refine List.forall_mem_singleton.mpr fun w found => ?_
    cases found
    refine (Json.admits_array_iff _ _).mpr ⟨_, rfl, fun item listed => ?_⟩
    obtain ⟨t, _, rfl⟩ := List.mem_map.mp listed
    exact template_summary_admitted t
  · exact List.forall_mem_singleton.mpr rfl

theorem map_late {α : Type} (outcome : Except Rendering.Fault α) (f : α → Output) :
    Late ((outcome.mapError Fault.rendering).map f) := by
  intro message failed
  cases outcome <;> cases failed

theorem map_given {α : Type} (outcome : Except Fault α) (f : α → Output) (output : Output)
    (given : outcome.map f = .ok output) : ∃ a, output = f a := by
  cases outcome with
  | error fault => cases given
  | ok a => cases given; exact ⟨a, rfl⟩

theorem template_late (id : String) :
    Late (match Templates.find? id with
      | some t => (return t : Except Fault Templates.Template)
      | none => throw (.templateNotFound id)) := by
  intro message failed
  split at failed <;> cases failed

theorem find_template_read (arguments : Value) :
    findTemplate arguments = readChoice "template_id" (fun id =>
      match Templates.find? id with
      | some t => return t
      | none => throw (.templateNotFound id)) arguments :=
  rfl

theorem render_markdown_kept (limit : Nat) (members : List (String × Value)) :
    Kept (renderMarkdown limit) (.object members) := by
  apply kept_of_reads _ (readChoice "markdown" pure)
    (fun source => ((Rendering.toHtml source limit).mapError .rendering).map .text) members
  case reads => exact reads_choice _ _ _ (by decide) fun _ => nofun
  case run =>
    intro arguments
    rw [readChoice, bind_pure]
    cases read : requiredText arguments "markdown" <;> simp only [renderMarkdown, read] <;> rfl
  case late => exact fun source => map_late _ _
  case declared =>
    intro source output given
    obtain ⟨html, rfl⟩ := map_given _ _ output given
    rfl

theorem convert_markdown_kept (defaults : Wiki.Options) (members : List (String × Value)) :
    Kept (convertMarkdown defaults) (.object members) := by
  apply kept_of_reads _ (readThemed "markdown" pure)
    (fun read => (convertFor defaults read.2 read.1).1.map .text) members
  case reads => exact reads_themed _ _ _ (by decide) fun _ => nofun
  case run =>
    intro arguments
    rw [readThemed, readChoice, bind_pure]
    cases first : requiredText arguments "markdown" with
    | error fault => simp only [convertMarkdown, first]; rfl
    | ok source =>
        cases second : optionalText arguments "theme" <;> simp only [convertMarkdown, first, second] <;> rfl
  case late => exact fun read => map_late _ _
  case declared =>
    intro read output given
    obtain ⟨page, rfl⟩ := map_given _ _ output given
    rfl

theorem list_templates_kept (members : List (String × Value)) :
    Kept listTemplates (.object members) := by
  have listed (arguments : Value) : (listTemplates.run arguments).result = .ok (.json (Value.sorted
      (.object [("templates", .array (Templates.all.map fun t => .object (templateSummary t)))]))) := by
    simp only [listTemplates]
    exact output_of_value _
  constructor
  case conforming => intro _ message failed; cases (listed _).symm.trans failed
  case nullTheme => intro _ message failed; cases (listed _).symm.trans failed
  case refused =>
    intro unfit
    obtain ⟨kept, whole, _⟩ := without_null_object "theme" members
    rw [whole] at unfit
    have fit := admits_anything kept
    rw [show listTemplates.descriptor.inputSchema = (Schema.object [] []).toValue from rfl, fit] at unfit
    cases unfit
  case absent => rfl
  case output =>
    intro output given
    cases (listed _).symm.trans given
    exact ⟨_, rfl, template_list_admitted Templates.all⟩

theorem get_template_kept (members : List (String × Value)) : Kept getTemplate (.object members) := by
  apply kept_of_reads _ findTemplate (fun t => .ok (.json (templateValue t).sorted)) members
  case reads => exact reads_choice _ _ _ (by decide) template_late
  case run =>
    intro arguments
    simp only [getTemplate, outputs_of_values]
    cases findTemplate arguments <;> rfl
  case late => exact fun t => nofun
  case declared =>
    rintro t output ⟨⟩
    exact ⟨_, rfl, get_template_admitted t⟩

theorem convert_template_kept (defaults : Wiki.Options) (members : List (String × Value)) :
    Kept (convertTemplate defaults) (.object members) := by
  apply kept_of_reads _ (readThemed "template_id" _)
    (fun read => (convertFor defaults read.2 read.1.content).1.map fun page =>
      .json (convertedTemplate read.1 page).sorted) members
  case reads => exact reads_themed _ _ _ (by decide) template_late
  case run =>
    intro arguments
    rw [readThemed, ← find_template_read]
    cases first : findTemplate arguments with
    | error fault => simp only [convertTemplate, first]; rfl
    | ok t =>
        cases second : optionalText arguments "theme" with
        | error fault => simp only [convertTemplate, first, second]; rfl
        | ok theme =>
            simp only [convertTemplate, first, second]
            exact outputs_of_values _ _
  case late => exact fun read => map_late _ _
  case declared =>
    intro read output given
    obtain ⟨page, rfl⟩ := map_given _ _ output given
    exact ⟨_, rfl, converted_template_admitted read.1 page⟩

theorem standard_tools_kept (defaults : Wiki.Options) (tool : Tool)
    (registered : tool ∈ (Registry.standard defaults).tools) (members : List (String × Value)) :
    Kept tool (.object members) := by
  revert tool
  refine List.forall_mem_cons.mpr ⟨render_markdown_kept defaults.limit members, ?_⟩
  refine List.forall_mem_cons.mpr ⟨convert_markdown_kept defaults members, ?_⟩
  refine List.forall_mem_cons.mpr ⟨list_templates_kept members, ?_⟩
  refine List.forall_mem_cons.mpr ⟨get_template_kept members, ?_⟩
  exact List.forall_mem_singleton.mpr (convert_template_kept defaults members)

structure Honest (tool : Tool) (arguments : Value) (result : CallResult) : Prop where
  outcome : result = .ofResult (tool.run arguments).result
  conforming : admits tool.descriptor.inputSchema arguments = true →
    ∀ message, (tool.run arguments).result ≠ .error (.invalidArguments message)
  nullTheme : admits tool.descriptor.inputSchema (withoutNull "theme" arguments) = true →
    ∀ message, (tool.run arguments).result ≠ .error (.invalidArguments message)
  refused : admits tool.descriptor.inputSchema (withoutNull "theme" arguments) = false →
    result.isError = true
  absent : (tool.run (withoutNull "theme" arguments)).result = (tool.run arguments).result
  structured : result.isError = false →
    (result.structured.isSome = true ↔ tool.descriptor.outputSchema.isSome = true)
  content : ∀ v, result.structured = some v →
    ∃ schema, tool.descriptor.outputSchema = some schema ∧ admits schema v = true
  failed : result.isError = true → result.structured = none

theorem honest_of_kept (tool : Tool) (arguments : Value) (kept : Kept tool arguments) :
    Honest tool arguments (.ofResult (tool.run arguments).result) := by
  have output := kept.output
  constructor
  case outcome => rfl
  case conforming => exact kept.conforming
  case nullTheme => exact kept.nullTheme
  case refused =>
    intro unfit
    obtain ⟨fault, failed⟩ := kept.refused unfit
    rw [failed]
    rfl
  case absent => exact kept.absent
  all_goals
    cases finished : (tool.run arguments).result with
    | error fault => simp [CallResult.ofResult, CallResult.ofFault]
    | ok given =>
        have declared := output given finished
        cases given with
        | text s =>
            have none : tool.descriptor.outputSchema = none := declared
            simp [CallResult.ofResult, CallResult.ofOutput, CallResult.ofText, none]
        | json v =>
            obtain ⟨schema, declares, admitted⟩ := declared
            simp [CallResult.ofResult, CallResult.ofOutput, declares, admitted]

theorem standard_tools_honest (defaults : Wiki.Options) (tool : Tool)
    (registered : tool ∈ (Registry.standard defaults).tools) (members : List (String × Value)) :
    ∃ result log, (Registry.standard defaults).invoke tool.name (.object members) = .ok (result, log) ∧
      Honest tool (.object members) result := by
  have found := (Registry.find_some_iff (.standard defaults) tool.name tool).mpr ⟨registered, rfl⟩
  obtain ⟨log, invoked⟩ := Registry.invoke_found _ tool.name tool (.object members) found
  exact ⟨_, log, invoked, honest_of_kept _ _ (standard_tools_kept defaults tool registered members)⟩

theorem standard_tools_honest_misnamed :
    convertTemplate {} ∈ (Registry.standard {}).tools ∧
      ∃ result log, (Registry.standard {}).invoke "convert_template"
          (.object [("template_id", .text "nope"), ("theme", .number (.integer 3))]) = .ok (result, log) ∧
        result.isError = true ∧ result.structured = none := by
  have registered : convertTemplate {} ∈ (Registry.standard {}).tools := by
    simp [Registry.standard, standardTools]
  obtain ⟨result, log, invoked, honest⟩ := standard_tools_honest {} (convertTemplate {}) registered
    [("template_id", .text "nope"), ("theme", .number (.integer 3))]
  have isError := honest.refused (by decide +kernel)
  exact ⟨registered, result, log, invoked, isError, honest.failed isError⟩

end MarkdownServer.Tools
