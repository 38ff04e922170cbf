import PluginKit.Proofs.Host
import PluginKit.Proofs.Value.Outcome
import PluginKit.Reply.Model

/-!
# Tools for a model

A model that is asked may call tools. If names of tools are given, the model is offered exactly the tools of these names,
in the order in which the host has them. An empty list of names counts as none given, so that it offers all tools instead
of none of them (`passed_iff`).
-/

namespace PluginKit.Reply

open Value (str)

variable {h : Host}

/-! ### Definitions of tools -/

def IsTool (tool : Value) : Prop := ∃ entries, tool.view = .dict entries

/-- The name of a tool; null if its definition has none. -/
def nameOf (tool : Value) : Value := ((tool.get "name" .null).toOption).getD .null

def isNamed (names : List Value) (tool : Value) : Bool := names.any (·.equal (nameOf tool))

theorem IsTool.get_name {tool : Value} (htool : IsTool tool) : tool.get "name" .null = .ok (nameOf tool) := by
  obtain ⟨entries, hview⟩ := htool
  rw [nameOf, Value.get, hview]
  rfl

theorem wantedTools_eq {names tools : List Value} (htools : ∀ t ∈ tools, IsTool t) :
    wantedTools (.list names) tools = .ok (tools.filter (isNamed names)) := by
  induction tools with
  | nil => rfl
  | cons tool tools ih =>
    obtain ⟨htool, hrest⟩ := List.forall_mem_cons.mp htools
    have hin : (nameOf tool).isIn (.list names) = .ok (isNamed names tool) := rfl
    rw [wantedTools, htool.get_name, Value.ok_bind, hin, Value.ok_bind, ih hrest]
    cases hnamed : isNamed names tool with
    | true =>
      rw [List.filter_cons_of_pos hnamed]
      rfl
    | false =>
      rw [List.filter_cons_of_neg (by rw [hnamed]; exact Bool.false_ne_true)]
      rfl

def toolsIn (offer : Value) : List Value := offer.elements?.getD []

/-- **What is offered:** the tools of the given names, or all tools if the list of names is empty. -/
theorem offeredTools_eq (names : List Value) {tools : List Value} (htools : ∀ t ∈ tools, IsTool t) :
    ∃ offer, offeredTools (.list names) (.list tools) = .ok offer ∧
      toolsIn offer = if names.isEmpty then tools else tools.filter (isNamed names) := by
  unfold offeredTools
  cases names with
  | nil => cases tools <;> exact ⟨_, rfl, rfl⟩
  | cons name names =>
    cases tools with
    | nil => exact ⟨_, rfl, rfl⟩
    | cons tool tools =>
      have hboth : ((Value.list (name :: names)).truthy && (Value.list (tool :: tools)).truthy) = true := rfl
      have helements : (Value.list (tool :: tools)).elements = .ok (tool :: tools) := rfl
      refine ⟨.list ((tool :: tools).filter (isNamed (name :: names))), ?_, rfl⟩
      rw [if_pos hboth, helements, Value.ok_bind, wantedTools_eq htools]
      rfl

/-- The given names are obeyed unless there are none of them but some tools. -/
theorem filter_eq_iff (names tools : List Value) :
    (if names.isEmpty then tools else tools.filter (isNamed names)) = tools.filter (isNamed names) ↔
      names ≠ [] ∨ tools = [] := by
  cases names with
  | nil =>
    have hnone : tools.filter (isNamed []) = [] := List.filter_eq_nil_iff.mpr fun _ _ => Bool.false_ne_true
    rw [hnone]
    simp
  | cons name names => simp

/-! ### Asking with tools -/

theorem run_attempt {α : Type} {x : HostM α} {r : Outcome α} {h' : Host} (hx : x.run.run h = (r, h')) :
    (attempt x).run.run h = (.ok r, h') := by
  have hx' : x h = (r, h') := hx
  show attempt x h = (.ok r, h')
  rw [attempt, hx']

theorem exists_run_lift_bind {α β : Type} {x : Outcome α} {f : α → HostM β} (hf : ∀ a, ∃ r, (f a).run.run h = (r, h)) :
    ∃ r, (Host.lift x >>= f).run.run h = (r, h) := by
  cases x with
  | error e => exact ⟨.error e, rfl⟩
  | ok a =>
    rw [Host.run_bind_ok (Host.run_lift_ok a h)]
    exact hf a

def askingWith (prompt model offer temperature maxTokens : Value) : HostCall :=
  ⟨.generateWithTools, [], [("prompt", prompt), ("model_config", model), ("tool_options", offer),
    ("temperature", temperature), ("max_tokens", maxTokens)]⟩

theorem generateWithTools_made (h : Host) (prompt model offer temperature maxTokens : Value) :
    ∃ r h', h.Made [askingWith prompt model offer temperature maxTokens] [] h' ∧
      (generateWithTools prompt model offer temperature maxTokens).run.run h = (r, h') := by
  obtain ⟨h', hmade, hrun⟩ := h.call_made .generateWithTools [] (askingWith prompt model offer temperature maxTokens).named
  unfold askingWith at hrun
  unfold generateWithTools
  cases hanswer : (h.answers .generateWithTools).head with
  | fails reason =>
    rw [HostFunction.channel, hanswer] at hrun
    exact ⟨_, h', hmade, Host.run_bind_error hrun⟩
  | gives reply =>
    rw [HostFunction.channel, hanswer] at hrun
    rw [Host.run_bind_ok hrun]
    suffices hparts : ∃ r, _ = (r, h') by
      obtain ⟨r, hr⟩ := hparts
      exact ⟨r, h', hmade, hr⟩
    refine exists_run_lift_bind fun items => ?_
    split
    · exact ⟨_, rfl⟩
    · exact ⟨_, rfl⟩

/-- The tools that the host has; there are none if it fails to tell them. -/
inductive HasTools (h : Host) : List Value → Prop where
  | told {tools : List Value} (hanswer : (h.answers .tools).head = .gives (.list tools)) : HasTools h tools
  | failed {reason : Text} (hanswer : (h.answers .tools).head = .fails reason) : HasTools h []

structure HasModels (h : Host) (entries : List (Value × Value)) : Prop where
  answer : ∃ models, (h.answers .models).head = .gives models ∧ modelEntries models = .ok entries
  nonempty : entries ≠ []

theorem HasTools.of_answers_eq {h' : Host} {tools : List Value} (htools : HasTools h tools)
    (hsame : h'.answers .tools = h.answers .tools) : HasTools h' tools := by
  cases htools with
  | told hanswer => exact .told (by rw [hsame, hanswer])
  | failed hanswer => exact .failed (by rw [hsame, hanswer])

theorem HasTools.run_tools {tools : List Value} (htools : HasTools h tools) : ∃ r h', h.Made [⟨.tools, [], []⟩] [] h' ∧
    (attempt (Host.call .tools [] [])).run.run h = (.ok r, h') ∧ r.toOption.getD (.list []) = .list tools := by
  obtain ⟨h', hmade, hrun⟩ := h.call_made .tools [] []
  rw [HostFunction.channel] at hrun
  cases htools with
  | told hanswer =>
    rw [hanswer] at hrun
    exact ⟨_, h', hmade, run_attempt hrun, rfl⟩
  | failed hanswer =>
    rw [hanswer] at hrun
    exact ⟨_, h', hmade, run_attempt hrun, rfl⟩

theorem HasModels.run_models {entries : List (Value × Value)} (hmodels : HasModels h entries) (hp : h.present = true) :
    ∃ models h', h.Made [⟨.models, [], []⟩] [] h' ∧ availableModels.run.run h = (.ok models, h') ∧
      modelEntries models = .ok entries := by
  obtain ⟨⟨models, hanswer, hentries⟩, -⟩ := hmodels
  obtain ⟨h', hmade, hrun⟩ := h.call_made .models [] []
  rw [HostFunction.channel, hanswer] at hrun
  refine ⟨models, h', hmade, ?_, hentries⟩
  rw [availableModels, Host.run_bind_ok (Host.run_require hp)]
  exact hrun

/-- **What a model is offered.** It is asked once, and offered the tools of the given names or, if the list of names is
empty, all of them. So the names are obeyed if and only if there are some, or there are no tools. -/
theorem passed_iff {entries : List (Value × Value)} {tools : List Value} (hp : h.present = true)
    (hmodels : HasModels h entries) (htools : HasTools h tools) (hdefined : ∀ t ∈ tools, IsTool t)
    (names : List Value) (prompt name temperature maxTokens : Value) (hname : name.hashable = true) :
    ∃ answer h' model offer logs,
      (callModelWithTools prompt (.list names) name temperature maxTokens).run.run h = (.ok answer, h') ∧
      h.Made [⟨.models, [], []⟩, ⟨.tools, [], []⟩, askingWith prompt model offer temperature maxTokens] logs h' ∧
      (toolsIn offer = if names.isEmpty then tools else tools.filter (isNamed names)) ∧
      (toolsIn offer = tools.filter (isNamed names) ↔ names ≠ [] ∨ tools = []) := by
  obtain ⟨models, h₁, hmade₁, hrun₁, hentries⟩ := hmodels.run_models hp
  have htools₁ : HasTools h₁ tools := htools.of_answers_eq (hmade₁.answers_eq (by simp [HostFunction.channel]))
  obtain ⟨told, h₂, hmade₂, hrun₂, htold⟩ := htools₁.run_tools
  obtain ⟨offer, hoffer, hin⟩ := offeredTools_eq names hdefined
  rw [callModelWithTools, Host.run_bind_ok (Host.run_require hp), Host.run_bind_ok hrun₁, hentries,
    Host.run_bind_ok (Host.run_lift_ok entries h₁)]
  cases entries with
  | nil => exact absurd rfl hmodels.nonempty
  | cons entry others =>
    obtain ⟨key, first⟩ := entry
    dsimp only
    rw [named?, if_pos hname, Host.run_bind_ok (Host.run_lift_ok _ h₁), Host.run_bind_ok hrun₂, htold, hoffer,
      Host.run_bind_ok (Host.run_lift_ok offer h₂)]
    obtain ⟨r, h₃, hmade₃, hrun₃⟩ := generateWithTools_made h₂ prompt _ offer temperature maxTokens
    rw [Host.run_bind_ok (run_attempt hrun₃)]
    have hmade := (hmade₁.trans hmade₂).trans hmade₃
    have hobeyed : toolsIn offer = tools.filter (isNamed names) ↔ names ≠ [] ∨ tools = [] := by
      rw [hin]
      exact filter_eq_iff names tools
    cases r with
    | ok answer => exact ⟨answer, h₃, _, offer, _, rfl, hmade, hin, hobeyed⟩
    | error e => exact ⟨_, _, _, offer, _, rfl, hmade.trans (.logged h₃ _), hin, hobeyed⟩

def toolOf (name : Text) : Value := .dict [(str "name", str name)]

def toolHost : Host where
  present := true
  answers c :=
    ⟨[], .gives (if c = .models then .dict [(str "m", str "first")]
      else if c = .tools then .list [toolOf "search", toolOf "weather"] else .null)⟩
  calls := []
  logs := []

theorem toolHost_passed : toolHost.present = true ∧ HasModels toolHost [(str "m", str "first")] ∧
    HasTools toolHost [toolOf "search", toolOf "weather"] ∧ (∀ t ∈ [toolOf "search", toolOf "weather"], IsTool t) ∧
    Value.null.hashable = true ∧
    ∃ answer h' model offer logs,
      (callModelWithTools (str "p") (.list [str "weather"]) .null .null .null).run.run toolHost = (.ok answer, h') ∧
      toolHost.Made [⟨.models, [], []⟩, ⟨.tools, [], []⟩, askingWith (str "p") model offer .null .null] logs h' ∧
      toolsIn offer = [toolOf "weather"] := by
  have hmodels : HasModels toolHost [(str "m", str "first")] := ⟨⟨_, rfl, rfl⟩, List.cons_ne_nil _ _⟩
  have htools : HasTools toolHost [toolOf "search", toolOf "weather"] := .told rfl
  have hdefined : ∀ t ∈ [toolOf "search", toolOf "weather"], IsTool t :=
    List.forall_mem_cons.mpr ⟨⟨_, rfl⟩, List.forall_mem_singleton.mpr ⟨_, rfl⟩⟩
  obtain ⟨answer, h', model, offer, logs, hrun, hmade, hin, -⟩ :=
    passed_iff rfl hmodels htools hdefined [str "weather"] (str "p") .null .null .null rfl
  exact ⟨rfl, hmodels, htools, hdefined, rfl, answer, h', model, offer, logs, hrun, hmade, hin⟩

/-- An empty list of names does not keep the tools from the model. -/
theorem toolHost_all_passed :
    ((callModelWithTools (str "p") (.list []) .null .null .null).run.run toolHost).2.calls =
      [⟨.models, [], []⟩, ⟨.tools, [], []⟩,
        askingWith (str "p") (str "first") (.list [toolOf "search", toolOf "weather"]) .null .null] ∧
    [toolOf "search", toolOf "weather"].filter (isNamed []) = [] :=
  ⟨rfl, rfl⟩

end PluginKit.Reply
