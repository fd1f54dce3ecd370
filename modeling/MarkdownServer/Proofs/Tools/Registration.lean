import MarkdownServer.Proofs.Json.Members
import MarkdownServer.Server
import MarkdownServer.Tools.Standard
import Mathlib.Data.Finset.Card
/- What a registry holds after any calls of `register`, those that failed among them: the first tool
   of each name, at the place of its registration. -/
set_option autoImplicit false

namespace MarkdownServer.Tools

open Json (Value)

def IsFirst (tools : List Tool) (tool : Tool) : Prop :=
  ∃ earlier later, tools = earlier ++ tool :: later ∧ ∀ other ∈ earlier, other.name ≠ tool.name

def firsts : List Tool → List Tool
  | [] => []
  | tool :: rest => tool :: (firsts rest).filter fun later => later.name != tool.name

theorem mem_firsts_iff (tools : List Tool) (tool : Tool) :
    tool ∈ firsts tools ↔ IsFirst tools tool := by
  induction tools with
  | nil => simp [firsts, IsFirst]
  | cons head rest ih =>
    simp only [firsts, List.mem_cons, List.mem_filter, bne_iff_ne, ih]
    constructor
    · rintro (rfl | ⟨⟨earlier, later, rfl, unlike⟩, other⟩)
      · exact ⟨[], rest, rfl, by simp⟩
      · exact ⟨head :: earlier, later, rfl, List.forall_mem_cons.mpr ⟨other.symm, unlike⟩⟩
    · rintro ⟨earlier, later, split, unlike⟩
      cases earlier with
      | nil => exact .inl (List.cons.inj split).1.symm
      | cons first between =>
        obtain ⟨rfl, rfl⟩ := List.cons.inj split
        have ⟨other, others⟩ := List.forall_mem_cons.mp unlike
        exact .inr ⟨⟨between, later, rfl, others⟩, other.symm⟩

theorem firsts_of_distinct (tools : List Tool) (distinct : (tools.map Tool.name).Nodup) :
    firsts tools = tools := by
  induction tools with
  | nil => rfl
  | cons head rest ih =>
    obtain ⟨fresh, apart⟩ := List.nodup_cons.mp distinct
    rw [firsts, ih apart, List.filter_eq_self.mpr]
    intro later member
    exact bne_iff_ne.mpr fun same => fresh (same ▸ List.mem_map_of_mem member)

theorem firsts_append (tools : List Tool) (tool : Tool) :
    firsts (tools ++ [tool]) =
      if tool.name ∈ tools.map Tool.name then firsts tools else firsts tools ++ [tool] := by
  induction tools with
  | nil => rfl
  | cons head rest ih =>
    simp only [List.cons_append, firsts, ih, List.map_cons, List.mem_cons]
    by_cases same : tool.name = head.name
    · split <;> simp [same]
    · split <;> simp [*]

theorem firsts_names (tools : List Tool) (name : String) :
    name ∈ (firsts tools).map Tool.name ↔ name ∈ tools.map Tool.name := by
  induction tools with
  | nil => rfl
  | cons head rest ih =>
    simp only [firsts, List.map_cons, List.mem_cons, ← ih, List.mem_map, List.mem_filter]
    by_cases same : name = head.name <;> grind

namespace Registry

def run (registry : Registry) (tools : List Tool) : Registry :=
  tools.foldl (fun registry tool => (registry.offer tool).1) registry

theorem offer_error_iff (registry : Registry) (tool : Tool) (fault : Fault) :
    (registry.offer tool).2 = .error fault ↔
      fault = .duplicateTool tool.name ∧ tool.name ∈ registry.names := by
  unfold offer
  split
  · rename_i taken
    simp [taken, eq_comm]
  · rename_i free
    simp [free]

theorem offer_taken (registry : Registry) (tool : Tool) (taken : tool.name ∈ registry.names) :
    (registry.offer tool).1 = registry := by
  rw [offer, dif_pos taken]

theorem offer_free (registry : Registry) (tool : Tool) (free : tool.name ∉ registry.names) :
    (registry.offer tool).1.tools = registry.tools ++ [tool] := by
  rw [offer, dif_neg free, add]

theorem run_append (base : Registry) (past : List Tool) (tool : Tool) :
    base.run (past ++ [tool]) = ((base.run past).offer tool).1 :=
  List.foldl_concat ..

theorem run_tools (base : Registry) (past : List Tool) :
    (base.run past).tools = firsts (base.tools ++ past) := by
  induction past using List.reverseRecOn with
  | nil => rw [List.append_nil, firsts_of_distinct base.tools base.distinct]; rfl
  | append_singleton past tool ih =>
    have names : tool.name ∈ (base.run past).names ↔
        tool.name ∈ (base.tools ++ past).map Tool.name := by
      rw [Registry.names, ih, firsts_names]
    rw [run_append, ← List.append_assoc, firsts_append]
    split
    · rename_i known
      rw [offer_taken _ _ (names.mpr known), ih]
    · rename_i fresh
      rw [offer_free _ _ fun taken => fresh (names.mp taken), ih]

theorem run_names (base : Registry) (past : List Tool) (name : String) :
    name ∈ (base.run past).names ↔ ∃ tool ∈ base.tools ++ past, tool.name = name := by
  rw [Registry.names, run_tools, firsts_names, List.mem_map]

theorem find_some_iff (registry : Registry) (name : String) (tool : Tool) :
    registry.find? name = some tool ↔ tool ∈ registry.tools ∧ tool.name = name := by
  constructor
  · intro found
    exact ⟨List.mem_of_find?_eq_some found, by simpa using List.find?_some found⟩
  · rintro ⟨member, rfl⟩
    cases found : registry.find? tool.name with
    | none => simpa using List.find?_eq_none.mp found tool member
    | some other =>
      have same : other.name = tool.name := by simpa using List.find?_some found
      rw [List.inj_on_of_nodup_map registry.distinct (List.mem_of_find?_eq_some found) member same]

theorem find_none_iff (registry : Registry) (name : String) :
    registry.find? name = none ↔ name ∉ registry.names := by
  simp [find?, names]

theorem invoke_found (registry : Registry) (name : String) (tool : Tool) (arguments : Value)
    (found : registry.find? name = some tool) :
    ∃ log, registry.invoke name arguments = .ok (.ofResult (tool.run arguments).result, log) := by
  rw [invoke, found]
  exact ⟨_, rfl⟩

theorem invoke_error_iff (registry : Registry) (name : String) (arguments : Value) (fault : Fault) :
    registry.invoke name arguments = .error fault ↔
      fault = .unknownTool name ∧ name ∉ registry.names := by
  rw [← find_none_iff]
  cases found : registry.find? name with
  | none => simp [invoke, found, eq_comm]
  | some tool => simp [invoke, found]

theorem offer_added (base : Registry) (past : List Tool) (tool : Tool)
    (accepted : ((base.run past).offer tool).2 = .ok ()) :
    ((base.run past).offer tool).1.tools = (base.run past).tools ++ [tool] := by
  refine offer_free _ _ fun taken => ?_
  have rejected := (offer_error_iff (base.run past) tool _).mpr ⟨rfl, taken⟩
  cases accepted.symm.trans rejected

theorem register_ok_iff (registry : Registry) (tool : Tool) (later : Registry) :
    registry.register tool = .ok later ↔
      (registry.offer tool).2 = .ok () ∧ later = (registry.offer tool).1 := by
  unfold register
  cases (registry.offer tool).2 with
  | error fault => simp [Except.map]
  | ok done => simp [Except.map, eq_comm]

theorem register_error_iff (registry : Registry) (tool : Tool) (fault : Fault) :
    registry.register tool = .error fault ↔ (registry.offer tool).2 = .error fault := by
  unfold register
  cases (registry.offer tool).2 with
  | error other => simp [Except.map]
  | ok done => simp [Except.map]

theorem run_size (base : Registry) (past : List Tool) :
    (base.run past).size = ((base.tools ++ past).map Tool.name).toFinset.card := by
  have same : ((base.tools ++ past).map Tool.name).toFinset = (base.run past).names.toFinset := by
    ext name
    rw [List.mem_toFinset, List.mem_toFinset, run_names, List.mem_map]
  have distinct : (base.run past).names.Nodup := (base.run past).distinct
  rw [same, List.toFinset_card_of_nodup distinct, names, List.length_map, size]

theorem find_first (base : Registry) (past : List Tool) (tool : Tool)
    (first : IsFirst (base.tools ++ past) tool) : (base.run past).find? tool.name = some tool := by
  rw [find_some_iff, run_tools, mem_firsts_iff]
  exact ⟨first, rfl⟩

theorem list_tools_reply (registry : Registry) (version : Protocol.Version)
    (id : Protocol.RequestId) (params : Option Value) :
    (Server.handle ⟨registry⟩ (.running version) (.request ⟨id, "tools/list", params⟩)).reply =
      some (.success id (.object [("tools",
        .array (registry.descriptors.map fun descriptor => descriptor.toValue.sorted))])) := by
  have method : "tools/list" ≠ "initialize" := by decide
  simp only [Server.handle, Server.handleRequest, if_neg method, if_true, Server.listTools]
  change some (Protocol.Reply.success id (Value.sorted _)) = _
  rw [Json.sorted_object _ (List.pairwise_singleton _ _)]
  simp [Value.sorted, Json.sorted_items_map]

-- A registry after some calls of `offer`, those that failed among them.
structure Registered (base : Registry) (past : List Tool) : Prop where
  failing : ∀ tool fault, ((base.run past).offer tool).2 = .error fault ↔
    fault = .duplicateTool tool.name ∧ ∃ earlier ∈ base.tools ++ past, earlier.name = tool.name
  unchanged : ∀ tool fault, ((base.run past).offer tool).2 = .error fault →
    ((base.run past).offer tool).1 = base.run past
  added : ∀ tool, ((base.run past).offer tool).2 = .ok () →
    ((base.run past).offer tool).1.tools = (base.run past).tools ++ [tool]
  next : ∀ tool, base.run (past ++ [tool]) = ((base.run past).offer tool).1
  registered : ∀ tool later, (base.run past).register tool = .ok later ↔
    ((base.run past).offer tool).2 = .ok () ∧ later = ((base.run past).offer tool).1
  refused : ∀ tool fault, (base.run past).register tool = .error fault ↔
    ((base.run past).offer tool).2 = .error fault
  descriptors : (base.run past).descriptors = (firsts (base.tools ++ past)).map Tool.descriptor
  listed : ∀ version id params,
    (Server.handle ⟨base.run past⟩ (.running version) (.request ⟨id, "tools/list", params⟩)).reply =
      some (.success id (.object [("tools", .array
        ((firsts (base.tools ++ past)).map fun tool => tool.descriptor.toValue.sorted))]))
  size : (base.run past).size = ((base.tools ++ past).map Tool.name).toFinset.card
  found : ∀ tool, IsFirst (base.tools ++ past) tool → (base.run past).find? tool.name = some tool
  missing : ∀ name, (base.run past).find? name = none ↔
    ∀ tool ∈ base.tools ++ past, tool.name ≠ name
  invoked : ∀ tool arguments, IsFirst (base.tools ++ past) tool → ∃ log,
    (base.run past).invoke tool.name arguments = .ok (.ofResult (tool.run arguments).result, log)
  unknown : ∀ name arguments fault, (base.run past).invoke name arguments = .error fault ↔
    fault = .unknownTool name ∧ ∀ tool ∈ base.tools ++ past, tool.name ≠ name

theorem first_of_each_name_stays (base : Registry) (past : List Tool) : Registered base past := by
  have unheard : ∀ name, name ∉ (base.run past).names ↔
      ∀ tool ∈ base.tools ++ past, tool.name ≠ name := by
    intro name
    rw [run_names]
    push Not
    rfl
  have listing : (base.run past).descriptors =
      (firsts (base.tools ++ past)).map Tool.descriptor := by
    rw [descriptors, run_tools]
  exact {
    failing := fun tool fault => by rw [offer_error_iff, run_names]
    unchanged := fun tool fault rejected =>
      offer_taken _ _ ((offer_error_iff _ tool fault).mp rejected).2
    added := offer_added base past
    next := run_append base past
    registered := register_ok_iff (base.run past)
    refused := register_error_iff (base.run past)
    descriptors := listing
    listed := fun version id params => by
      rw [list_tools_reply, listing, List.map_map]
      rfl
    size := run_size base past
    found := find_first base past
    missing := fun name => by rw [find_none_iff, unheard]
    invoked := fun tool arguments first =>
      invoke_found _ tool.name tool arguments (find_first base past tool first)
    unknown := fun name arguments fault => by rw [invoke_error_iff, unheard] }

theorem eq_of_tools (first second : Registry) (same : first.tools = second.tools) : first = second := by
  obtain ⟨tools, distinct⟩ := first
  obtain ⟨others, distinct'⟩ := second
  cases same
  rfl

theorem standard_run (defaults : Wiki.Options) :
    empty.run (standardTools defaults) = standard defaults := by
  apply eq_of_tools
  rw [run_tools]
  exact firsts_of_distinct (standardTools defaults) (standard defaults).distinct

end Registry
end MarkdownServer.Tools
