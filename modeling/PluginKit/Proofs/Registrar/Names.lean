import PluginKit.Proofs.Registrar.Histories

/-!
# The names of registered components

Under which names the components stand that a plugin file registers. A call gives its component a name of its
own or leaves it without one (`Names`), and the components without a name are numbered in the order of the calls.
So after all the calls the commands have exactly the names that were given and the numbered ones
(`performAll_names`).
-/

namespace PluginKit.Registrar

open List

variable {s s' : State} {name : Text}

/-! ### Names -/

def Registry.HasCommand (r : Registry) (name : Text) : Prop := (find? (.text name) r.commands).isSome = true

def Registry.HasAction (r : Registry) (name : Text) : Prop := (find? (.text name) r.actions).isSome = true

/-- Registering a component adds its name and takes none away. -/
theorem Binds.isSome_find? {role : Role} {c : Component} {r r' : Registry} {m : Text} (h : Binds role c r r')
    (hc : c.name = .text m) (n : Text) : (find? (.text n) (r'.of role)).isSome = true ↔
      m = n ∨ (find? (.text n) (r.of role)).isSome = true := by
  rw [h.find?_eq, hc]
  by_cases hm : m = n
  · simp [Datum.sameKey, hm]
  · simp [Datum.sameKey, hm]

/-! ### Calls -/

inductive Naming where
  | command (name : Text)
  | action (name : Text)
  | unnamed

namespace Naming

def commandName? : Naming → Option Text
  | command name => some name
  | _ => none

def actionName? : Naming → Option Text
  | action name => some name
  | _ => none

def isUnnamed : Naming → Bool
  | unnamed => true
  | _ => false

end Naming

def Datum.isPattern : Datum → Bool
  | .text _ => true
  | .regex _ _ => true
  | _ => false

/-- The documented forms of calls, and what they say about the name of their component. -/
inductive Names : Call → Naming → Prop where
  | reply (pattern : Datum) (answer : Text) : Names (.reply [pattern, .text answer]) .unnamed
  | namedReply (pattern : Datum) (answer name : Text) (hname : name ≠ []) :
    Names (.reply [pattern, .text answer, .text name]) (.command name)
  | pattern (pattern : Datum) (h : Handler) (hp : pattern.isPattern = true) :
    Names (.command [pattern, .handler h]) .unnamed
  | catchAll (h : Handler) : Names (.command [.handler h]) .unnamed
  | command (config : Datum) (name : Text) (hc : config.isObject = true)
    (hname : config.property "name" = .text name) (hne : name ≠ []) : Names (.command [config]) (.command name)
  | action (config : Datum) (name : Text) (hc : config.isObject = true)
    (hname : config.property "name" = .text name) (hne : name ≠ []) : Names (.action [config]) (.action name)

/-! ### What a call registers -/

/-- The state after a call: the commands have one more name, the actions the same, and the number went up by
`numbers`. -/
structure AddsCommand (s s' : State) (name : Text) (numbers : Nat) : Prop where
  commands : ∀ n, s'.registry.HasCommand n ↔ name = n ∨ s.registry.HasCommand n
  actions : s'.registry.actions = s.registry.actions
  lastId : s'.lastId = s.lastId + numbers

theorem registers_of_perform {call : Call} (h : s.perform call = (s', .ok ())) :
    ∃ config c, Describes call config ∧ Registers call.role config c s s' := by
  have hcomes := comesTo_perform s call
  rw [h] at hcomes
  cases hcomes with
  | registered _ config c hconfig h => exact ⟨config, c, hconfig, h⟩

namespace Registers

variable {role : Role} {config : Datum} {c : Component}

theorem of_text (h : Registers role config c s s') (hname : config.property "name" = .text name) (hne : name ≠ []) :
    c.name = .text name ∧ s'.lastId = s.lastId := by
  rw [← hname]
  exact h.named (by rw [hname]; simp [Datum.truthy, hne])

theorem addsCommand_text (h : Registers .command config c s s') (hname : config.property "name" = .text name)
    (hne : name ≠ []) : AddsCommand s s' name 0 :=
  ⟨h.binds.isSome_find? (h.of_text hname hne).1, h.binds.others .action nofun, (h.of_text hname hne).2⟩

theorem addsCommand_undefined (h : Registers .command config c s s') (hname : config.property "name" = .undefined) :
    AddsCommand s s' (autoName (s.lastId + 1)) 1 := by
  obtain ⟨hc, hlast⟩ := h.unnamed (by rw [hname]; rfl)
  exact ⟨h.binds.isSome_find? hc, h.binds.others .action nofun, hlast⟩

end Registers

/-- An object is its own description. Only one that has what it has from a regular expression is taken for a pattern,
and then the function is missing. -/
theorem commandConfig_object {d config : Datum} (hd : d.isObject = true) (h : commandConfig [d] = .ok config) :
    config = d := by
  cases d with
  | object fields =>
    cases h
    rfl
  | derived fields parent =>
    cases hr : parent.isRegex with
    | true => simp [commandConfig, argument, Datum.isText, Datum.isRegex, Datum.isFunction, hr] at h
    | false =>
      simp [commandConfig, argument, Datum.isText, Datum.isRegex, Datum.isFunction, Datum.isCollection, hr] at h
      exact h.symm
  | _ => cases hd

theorem actionConfig_object {d config : Datum} (hd : d.isObject = true) (h : actionConfig [d] = .ok config) :
    config = d := by
  cases d with
  | object fields =>
    cases h
    rfl
  | derived fields parent =>
    cases h
    rfl
  | _ => cases hd

theorem commandConfig_pattern {d config : Datum} {f : Handler} (hd : d.isPattern = true)
    (h : commandConfig [d, .handler f] = .ok config) : config.property "name" = .undefined := by
  cases d with
  | text s =>
    cases h
    rfl
  | regex source flags =>
    cases h
    rfl
  | _ => cases hd

/-- **One call** registers its component under the name that it says, or under the next number. -/
theorem perform_names {s s' : State} {call : Call} {naming : Naming} (hn : Names call naming)
    (h : s.perform call = (s', .ok ())) :
    match naming with
    | .command name => AddsCommand s s' name 0
    | .unnamed => AddsCommand s s' (autoName (s.lastId + 1)) 1
    | .action name => (∀ n, s'.registry.HasAction n ↔ name = n ∨ s.registry.HasAction n) ∧
        s'.registry.commands = s.registry.commands ∧ s'.lastId = s.lastId := by
  obtain ⟨config, c, hconfig, hregisters⟩ := registers_of_perform h
  cases hn with
  | reply pattern answer =>
    cases hconfig
    exact hregisters.addsCommand_undefined rfl
  | namedReply pattern answer name hne =>
    cases hconfig
    exact hregisters.addsCommand_text rfl hne
  | pattern pattern handler hp =>
    cases hconfig with | command _ _ hconfig =>
    exact hregisters.addsCommand_undefined (commandConfig_pattern hp hconfig)
  | catchAll handler =>
    cases hconfig with | command _ _ hconfig =>
    cases hconfig
    exact hregisters.addsCommand_undefined rfl
  | command d name hd hname hne =>
    cases hconfig with | command _ _ hconfig =>
    obtain rfl := commandConfig_object hd hconfig
    exact hregisters.addsCommand_text hname hne
  | action d name hd hname hne =>
    cases hconfig with | action _ _ hconfig =>
    obtain rfl := actionConfig_object hd hconfig
    obtain ⟨hc, hlast⟩ := hregisters.of_text hname hne
    exact ⟨hregisters.binds.isSome_find? hc, hregisters.binds.others .command nofun, hlast⟩

theorem exists_autoName_succ {last count : Nat} {n : Text} :
    (∃ k, last < k ∧ k ≤ last + (count + 1) ∧ n = autoName k) ↔
      autoName (last + 1) = n ∨ ∃ k, last + 1 < k ∧ k ≤ last + 1 + count ∧ n = autoName k := by
  constructor
  · rintro ⟨k, h1, h2, rfl⟩
    by_cases hk : k = last + 1
    · exact .inl (by rw [hk])
    · exact .inr ⟨k, by omega, by omega, rfl⟩
  · rintro (rfl | ⟨k, h1, h2, rfl⟩)
    · exact ⟨last + 1, by omega, by omega, rfl⟩
    · exact ⟨k, by omega, by omega, rfl⟩

/-- **All calls**: the commands have the names that were given and the numbers from the first to the last, the
actions have the names that were given. -/
theorem performAll_names {calls : List Call} {namings : List Naming} (hn : List.Forall₂ Names calls namings) :
    ∀ {s s' : State}, s.performAll calls = (s', .ok ()) →
      (∀ n, s'.registry.HasCommand n ↔ s.registry.HasCommand n ∨ n ∈ namings.filterMap Naming.commandName? ∨
        ∃ k, s.lastId < k ∧ k ≤ s.lastId + namings.countP Naming.isUnnamed ∧ n = autoName k) ∧
      (∀ n, s'.registry.HasAction n ↔ s.registry.HasAction n ∨ n ∈ namings.filterMap Naming.actionName?) := by
  induction hn with
  | nil =>
    intro s s' h
    cases h
    refine ⟨fun n => ?_, fun n => by simp⟩
    simp only [filterMap_nil, not_mem_nil, countP_nil, Nat.add_zero, false_or]
    exact ⟨.inl, fun h => h.resolve_right fun ⟨k, h1, h2, _⟩ => by omega⟩
  | @cons call naming calls namings hfirst _ ih =>
    intro s s' h
    rw [State.performAll] at h
    split at h
    · next s₁ hstep =>
      have hnames := perform_names hfirst hstep
      obtain ⟨hcommands, hactions⟩ := ih h
      cases naming with
      | command name =>
        refine ⟨fun n => ?_, fun n => ?_⟩
        · rw [hcommands, hnames.commands, hnames.lastId]
          simp only [filterMap_cons, Naming.commandName?, mem_cons, countP_cons, Naming.isUnnamed,
            Bool.false_eq_true, if_false, Nat.add_zero, eq_comm (a := name)]
          tauto
        · rw [hactions, Registry.HasAction, hnames.actions]
          simp only [filterMap_cons, Naming.actionName?]
          rfl
      | action name =>
        obtain ⟨hadded, hsame, hlast⟩ := hnames
        refine ⟨fun n => ?_, fun n => ?_⟩
        · rw [hcommands, Registry.HasCommand, hsame, hlast]
          simp only [filterMap_cons, Naming.commandName?, countP_cons, Naming.isUnnamed,
            Bool.false_eq_true, if_false, Nat.add_zero]
          rfl
        · rw [hactions, hadded]
          simp only [filterMap_cons, Naming.actionName?, mem_cons, eq_comm (a := name)]
          tauto
      | unnamed =>
        refine ⟨fun n => ?_, fun n => ?_⟩
        · rw [hcommands, hnames.commands, hnames.lastId]
          simp only [filterMap_cons, Naming.commandName?, countP_cons, Naming.isUnnamed, if_true]
          rw [exists_autoName_succ]
          simp only [or_assoc, or_left_comm (a := autoName (s.lastId + 1) = n)]
        · rw [hactions, Registry.HasAction, hnames.actions]
          simp only [filterMap_cons, Naming.actionName?]
          rfl
    · cases h

theorem not_hasCommand_initial (n : Text) : ¬ State.initial.registry.HasCommand n := Bool.false_ne_true

theorem not_hasAction_initial (n : Text) : ¬ State.initial.registry.HasAction n := Bool.false_ne_true

/-- The component of a name is missing if there is neither a command nor an action. -/
theorem component?_eq_none_iff (r : Registry) (n : Text) :
    r.component? (.text n) = none ↔ ¬ r.HasCommand n ∧ ¬ r.HasAction n := by
  rw [Registry.component?, Registry.HasCommand, Registry.HasAction]
  cases find? (.text n) r.commands with
  | some c => simp
  | none => simp

end PluginKit.Registrar
