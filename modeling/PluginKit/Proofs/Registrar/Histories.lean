import PluginKit.Proofs.Registrar.Bindings

/-!
# Runs of the registrar

A plugin file makes calls one after another, and one that throws does not keep the next from being made. Each call
brings the description of a component (`Describes`) and either throws and leaves the registry as it was, or puts one
component, made from the description, into the map of its role (`Registers`). The history of a run lists what each call
came to (`History`), and the registry after the run can be read off the history: under each name stands what was
registered under it last (`registry_of_run`).
-/

namespace PluginKit.Registrar

open List

variable {d p name config : Datum} {key : Text} {c : Component}

/-! ### Fields of a description -/

def Datum.isObject : Datum → Bool
  | .object _ => true
  | .derived _ _ => true
  | _ => false

theorem field?_setField (key k : Text) (value : Datum) (fields : List (Text × Datum)) :
    Datum.field? k (Datum.setField key value fields) = if k = key then some value else Datum.field? k fields := by
  induction fields with
  | nil =>
    by_cases h : k = key
    · simp [Datum.setField, Datum.field?, h]
    · simp [Datum.setField, Datum.field?, h, Ne.symm h]
  | cons f fields ih =>
    simp only [Datum.field?] at ih ⊢
    rw [Datum.setField]
    by_cases hf : f.1 = key
    · subst hf
      by_cases h : k = f.1
      · simp [h]
      · simp [h, Ne.symm h]
    · by_cases h : f.1 = k
      · subst h
        simp [hf]
      · simp [hf, h, ih]

theorem property_withField (hd : d.isObject = true) (key k : Text) (value : Datum) :
    (d.withField key value).property k = if k = key then value else d.property k := by
  cases d with
  | object fields =>
    simp only [Datum.withField, Datum.property, Datum.own?, field?_setField]
    split <;> rfl
  | derived fields parent =>
    simp only [Datum.withField, Datum.property, field?_setField]
    by_cases h : k = key
    · simp [h]
    · simp [h]
  | _ => cases hd

theorem isObject_withField (hd : d.isObject = true) (key : Text) (value : Datum) :
    (d.withField key value).isObject = true := by
  cases d with
  | object fields => rfl
  | derived fields parent => rfl
  | _ => cases hd

theorem isObject_of_execute (h : (d.property "execute").isFunction = true) : d.isObject = true := by
  cases d with
  | object fields => rfl
  | derived fields parent => rfl
  | _ => cases h

/-! ### Patterns -/

/-- A pattern that can be stored: a regular expression or null. -/
def Datum.isStoredPattern (d : Datum) : Bool := d.isRegex || d.isNull

theorem isStoredPattern_of_compile {source : Text} (h : compile source = .ok p) : p.isStoredPattern = true := by
  unfold compile at h
  split at h
  · cases h
    rfl
  · cases h

theorem isStoredPattern_of_normalizePattern (h : normalizePattern d = .ok p) : p.isStoredPattern = true := by
  unfold normalizePattern at h
  split at h
  · next hd =>
    cases h
    rw [Datum.isStoredPattern, hd]
    rfl
  · split at h
    · cases h
      rfl
    · split at h
      · exact isStoredPattern_of_compile h
      · exact isStoredPattern_of_compile h
    · cases h
      rfl

theorem normalizePattern_stored (h : p.isStoredPattern = true) : normalizePattern p = .ok p := by
  unfold normalizePattern
  split
  · rfl
  · next hregex =>
    rw [Datum.isStoredPattern, Bool.or_eq_true, or_iff_right hregex] at h
    cases p with
    | null => rfl
    | _ => cases h

/-! ### What a call registers -/

/-- The name that the component without a name gets with a number. -/
def autoName (k : Nat) : Text := s!"auto_{k}"

theorem autoName_ne_nil (k : Nat) : autoName k ≠ [] := by
  simp [autoName, Text.ofString]

def Call.role : Call → Role
  | command _ => .command
  | reply _ => .command
  | action _ => .action

/-- The description of a component that a call brings. -/
inductive Describes : Call → Datum → Prop where
  | command (args : List Datum) (config : Datum) (h : commandConfig args = .ok config) :
    Describes (.command args) config
  | reply (args : List Datum) (answer : Text) (h : argument args 1 = .text answer) :
    Describes (.reply args) (.object [("name", argument args 2), ("pattern", argument args 0),
      ("execute", .handler (.reply answer))])
  | action (args : List Datum) (config : Datum) (h : actionConfig args = .ok config) :
    Describes (.action args) config

/-- A component that was made from a description: it has its own name, a function to execute and, if it is a command,
the pattern of the description in the form in which it is stored; all else is as in the description. -/
structure MadeFrom (role : Role) (config : Datum) (c : Component) : Prop where
  name : c.config.property "name" = c.name
  truthy : c.name.truthy = true
  execute : (c.config.property "execute").isFunction = true
  pattern : role = .command → normalizePattern (config.property "pattern") = .ok (c.config.property "pattern")
  others : ∀ key : Text, key ≠ "name" → (role = .command → key ≠ "pattern") → c.config.property key = config.property key

/-- The state after a call that registered a component: it stands under the name of its description, or under the next
number if that has none. -/
structure Registers (role : Role) (config : Datum) (c : Component) (s s' : State) : Prop where
  made : MadeFrom role config c
  binds : Binds role c s.registry s'.registry
  named : (config.property "name").truthy = true → c.name = config.property "name" ∧ s'.lastId = s.lastId
  unnamed : (config.property "name").truthy = false →
    c.name = .text (autoName (s.lastId + 1)) ∧ s'.lastId = s.lastId + 1

/-- A call that threw registered nothing, but may have used up a number. -/
structure Threw (s s' : State) : Prop where
  registry : s'.registry = s.registry
  lastId : s.lastId ≤ s'.lastId

/-- What a call came to. -/
inductive ComesTo (role : Role) (s : State) (brings : Datum → Prop) : State × Attempt Unit → Prop where
  | threw (s' : State) (e : Thrown) (h : Threw s s') : ComesTo role s brings (s', .error e)
  | registered (s' : State) (config : Datum) (c : Component) (hconfig : brings config)
    (h : Registers role config c s s') : ComesTo role s brings (s', .ok ())

theorem Threw.refl (s : State) : Threw s s := ⟨rfl, Nat.le_refl _⟩

theorem autoName_injective {i j : Nat} (h : autoName i = autoName j) : i = j := Text.ofString_numbered_injective h

theorem nameOr_named {s : State} (h : name.truthy = true) : s.nameOr name = (name, s) := if_pos h

theorem nameOr_unnamed {s : State} (h : name.truthy = false) :
    s.nameOr name = (.text (autoName (s.lastId + 1)), { s with lastId := s.lastId + 1 }) :=
  if_neg (by rw [h]; exact Bool.false_ne_true)

theorem threw_nameOr (s : State) (name : Datum) : Threw s (s.nameOr name).2 := by
  cases h : name.truthy with
  | true =>
    rw [nameOr_named h]
    exact .refl s
  | false =>
    rw [nameOr_unnamed h]
    exact ⟨rfl, Nat.le_succ _⟩

theorem truthy_nameOr (s : State) (name : Datum) : (s.nameOr name).1.truthy = true := by
  cases h : name.truthy with
  | true =>
    rw [nameOr_named h]
    exact h
  | false =>
    rw [nameOr_unnamed h]
    simp [Datum.truthy, autoName_ne_nil]

theorem assign_ok {d' : Datum} {value : Datum} (h : d.assign key value = .ok d') : d' = d.withField key value := by
  unfold Datum.assign at h
  split at h
  · cases h
  · cases h
    rfl

theorem requireExecute_ok {what : Text} (h : requireExecute what config = .ok ()) :
    (config.property "execute").isFunction = true := by
  unfold requireExecute at h
  split at h
  · next hf => exact hf
  · exfalso
    cases ht : ((config.property "name").orElse (.text "?")).toText with
    | error e =>
      rw [ht] at h
      cases h
    | ok t =>
      rw [ht] at h
      cases h

def State.bind (s : State) (role : Role) (c : Component) : State :=
  match role with
  | .command => { s with registry := { s.registry with commands := put c s.registry.commands } }
  | .action => { s with registry := { s.registry with actions := put c s.registry.actions } }

theorem binds_bind (s : State) (role : Role) (c : Component) : Binds role c s.registry (s.bind role c).registry := by
  cases role with
  | command =>
    refine ⟨placed_put c _, fun other hother => ?_⟩
    cases other with
    | command => exact absurd rfl hother
    | action => rfl
  | action =>
    refine ⟨placed_put c _, fun other hother => ?_⟩
    cases other with
    | command => rfl
    | action => exact absurd rfl hother

theorem lastId_bind (s : State) (role : Role) (c : Component) : (s.bind role c).lastId = s.lastId := by
  cases role <;> rfl

/-- A component under the name of its description or the next number is registered as it should be. -/
theorem registers_bind {s : State} (role : Role) (hmade : MadeFrom role config c)
    (hname : c.name = (s.nameOr (config.property "name")).1) :
    Registers role config c s ((s.nameOr (config.property "name")).2.bind role c) := by
  have hbinds := binds_bind (s.nameOr (config.property "name")).2 role c
  rw [(threw_nameOr s _).registry] at hbinds
  refine ⟨hmade, hbinds, fun h => ?_, fun h => ?_⟩
  · rw [nameOr_named h] at hname ⊢
    exact ⟨hname, lastId_bind s role c⟩
  · rw [nameOr_unnamed h] at hname ⊢
    exact ⟨hname, lastId_bind _ role c⟩

theorem comesTo_addCommand (s : State) (config : Datum) : ComesTo .command s (· = config) (s.addCommand config) := by
  unfold State.addCommand
  split
  · exact .threw s _ (.refl s)
  · next hexecute =>
    have hfunction := requireExecute_ok hexecute
    have hobject := isObject_of_execute hfunction
    simp only
    split
    · exact .threw _ _ (threw_nameOr s _)
    · next named hassign =>
      obtain rfl := assign_ok hassign
      split
      · exact .threw _ _ (threw_nameOr s _)
      · next pattern hpattern =>
        have hnamed := isObject_withField hobject "name" (s.nameOr (config.property "name")).1
        rw [property_withField hobject, if_neg (by decide)] at hpattern
        refine .registered _ config ⟨_, _⟩ rfl (registers_bind .command ⟨?_, truthy_nameOr s _, ?_, ?_, ?_⟩ rfl)
        · rw [property_withField hnamed, if_neg (by decide), property_withField hobject, if_pos rfl]
        · rw [property_withField hnamed, if_neg (by decide), property_withField hobject, if_neg (by decide)]
          exact hfunction
        · intro _
          rw [property_withField hnamed, if_pos rfl]
          exact hpattern
        · intro key hname hpattern
          rw [property_withField hnamed, if_neg (hpattern rfl), property_withField hobject, if_neg hname]

theorem comesTo_addAction (s : State) (config : Datum) : ComesTo .action s (· = config) (s.addAction config) := by
  unfold State.addAction
  split
  · exact .threw s _ (.refl s)
  · next hexecute =>
    have hfunction := requireExecute_ok hexecute
    have hobject := isObject_of_execute hfunction
    simp only
    split
    · exact .threw _ _ (threw_nameOr s _)
    · next named hassign =>
      obtain rfl := assign_ok hassign
      refine .registered _ config ⟨_, _⟩ rfl (registers_bind .action ⟨?_, truthy_nameOr s _, ?_, ?_, ?_⟩ rfl)
      · rw [property_withField hobject, if_pos rfl]
      · rw [property_withField hobject, if_neg (by decide)]
        exact hfunction
      · intro h
        cases h
      · intro key hname _
        rw [property_withField hobject, if_neg hname]

theorem property_reply (name pattern execute : Datum) (hname : key ≠ "name") (hpattern : key ≠ "pattern")
    (name' pattern' : Datum) :
    (Datum.object [("name", name), ("pattern", pattern), ("execute", execute)]).property key
      = (Datum.object [("name", name'), ("pattern", pattern'), ("execute", execute)]).property key := by
  simp [Datum.property, Datum.own?, Datum.field?, List.find?_cons, beq_eq_false_iff_ne.mpr hname.symm,
    beq_eq_false_iff_ne.mpr hpattern.symm]

theorem comesTo_reply (s : State) (args : List Datum) :
    ComesTo .command s (Describes (.reply args)) (s.reply args) := by
  unfold State.reply
  split
  · next answer hanswer =>
    have hbrings := Describes.reply args answer hanswer
    have hthrew := threw_nameOr s (argument args 2)
    simp only
    split
    · exact .threw _ _ hthrew
    · next pattern hpattern =>
      -- The name and the pattern are settled here, so that registering the command changes neither.
      generalize hinner : State.addCommand _ _ = r
      have hcomes := comesTo_addCommand (s.nameOr (argument args 2)).2 (.object [("name", (s.nameOr (argument args 2)).1),
        ("pattern", pattern), ("execute", .handler (.reply answer))])
      rw [hinner] at hcomes
      cases hcomes with
      | threw s' e h => exact .threw s' e ⟨h.registry.trans hthrew.registry, Nat.le_trans hthrew.lastId h.lastId⟩
      | registered s' config c hconfig h =>
        subst hconfig
        obtain ⟨⟨hown, htruthy, hfunction, hstored, hothers⟩, hbinds, hnamed, -⟩ := h
        obtain ⟨hname, hlast⟩ := hnamed (truthy_nameOr s _)
        rw [hthrew.registry] at hbinds
        have hkept : c.config.property "pattern" = pattern := by
          have hagain := normalizePattern_stored (isStoredPattern_of_normalizePattern hpattern)
          exact (Except.ok.inj (hagain.symm.trans (hstored rfl))).symm
        refine .registered s' _ c hbrings ⟨⟨hown, htruthy, hfunction, fun _ => ?_, fun key hkey hkey' => ?_⟩, hbinds,
          fun h => ?_, fun h => ?_⟩
        · rw [hkept]
          exact hpattern
        · rw [hothers key hkey hkey']
          exact property_reply _ _ _ hkey (hkey' rfl) _ _
        · have hgiven : s.nameOr (argument args 2) = (argument args 2, s) := nameOr_named h
          rw [hgiven] at hname hlast
          exact ⟨hname, hlast⟩
        · have hnumbered : s.nameOr (argument args 2) = _ := nameOr_unnamed h
          rw [hnumbered] at hname hlast
          exact ⟨hname, hlast⟩
  · exact .threw s _ (.refl s)

/-- **One call** throws and leaves the registry as it was, or registers one component of its role. -/
theorem comesTo_perform (s : State) (call : Call) : ComesTo call.role s (Describes call) (s.perform call) := by
  cases call with
  | command args =>
    rw [State.perform, State.command]
    cases hconfig : commandConfig args with
    | error e => exact .threw s e (.refl s)
    | ok config =>
      have hcomes := comesTo_addCommand s config
      simp only
      generalize s.addCommand config = r at hcomes
      cases hcomes with
      | threw s' e h => exact .threw s' e h
      | registered s' _ c he h => exact .registered s' config c (.command args config hconfig) (he ▸ h)
  | reply args => exact comesTo_reply s args
  | action args =>
    rw [State.perform, State.action]
    cases hconfig : actionConfig args with
    | error e => exact .threw s e (.refl s)
    | ok config =>
      have hcomes := comesTo_addAction s config
      simp only
      generalize s.addAction config = r at hcomes
      cases hcomes with
      | threw s' e h => exact .threw s' e h
      | registered s' _ c he h => exact .registered s' config c (.action args config hconfig) (he ▸ h)

/-! ### Histories -/

/-- The state after calls, each of which is made whatever came of those before. -/
def State.performEach (s : State) : List Call → State
  | [] => s
  | call :: rest => (s.perform call).1.performEach rest

structure Registered where
  role : Role
  isNamed : Bool
  component : Component

/-- The history of a run: nothing for a call that threw, and else what it registered. -/
inductive History : State → List Call → List (Option Registered) → Prop where
  | nil (s : State) : History s [] []
  | threw {s s' : State} {call : Call} {e : Thrown} {calls : List Call} {log : List (Option Registered)}
    (hcall : s.perform call = (s', .error e)) (h : Threw s s') (hrest : History s' calls log) :
    History s (call :: calls) (none :: log)
  | registered {s s' : State} {call : Call} {config : Datum} {c : Component} {calls : List Call}
    {log : List (Option Registered)} (hcall : s.perform call = (s', .ok ())) (hconfig : Describes call config)
    (h : Registers call.role config c s s') (hrest : History s' calls log) :
    History s (call :: calls) (some ⟨call.role, (config.property "name").truthy, c⟩ :: log)

theorem exists_history (s : State) (calls : List Call) : ∃ log, History s calls log := by
  induction calls generalizing s with
  | nil => exact ⟨[], .nil s⟩
  | cons call calls ih =>
    have hcomes := comesTo_perform s call
    generalize hcall : s.perform call = r at hcomes
    cases hcomes with
    | threw s' e h =>
      obtain ⟨log, hlog⟩ := ih s'
      exact ⟨_, .threw hcall h hlog⟩
    | registered s' config c hconfig h =>
      obtain ⟨log, hlog⟩ := ih s'
      exact ⟨_, .registered hcall hconfig h hlog⟩

theorem performEach_cons {s s' : State} {call : Call} {o : Attempt Unit} (h : s.perform call = (s', o))
    (calls : List Call) : s.performEach (call :: calls) = s'.performEach calls := by
  rw [State.performEach, h]

def registrations (log : List (Option Registered)) : List Registered := log.filterMap id

theorem registrations_none (log : List (Option Registered)) : registrations (none :: log) = registrations log := rfl

theorem registrations_some (r : Registered) (log : List (Option Registered)) :
    registrations (some r :: log) = r :: registrations log := rfl

/-- The component that was registered last for a role under a name. -/
def lastRegistered (role : Role) (name : Datum) (log : List (Option Registered)) : Option Component :=
  ((registrations log).reverse.find? fun r => decide (role = r.role) && r.component.name.sameKey name).map (·.component)

theorem lastRegistered_none (role : Role) (name : Datum) (log : List (Option Registered)) :
    lastRegistered role name (none :: log) = lastRegistered role name log := by
  rw [lastRegistered, registrations_none, lastRegistered]

theorem lastRegistered_some (role : Role) (name : Datum) (r : Registered) (log : List (Option Registered)) :
    lastRegistered role name (some r :: log) = (lastRegistered role name log).or
      (if role = r.role ∧ r.component.name.sameKey name = true then some r.component else none) := by
  rw [lastRegistered, registrations_some, reverse_cons, List.find?_append, Option.map_or]
  congr 1
  by_cases h : role = r.role ∧ r.component.name.sameKey name = true
  · rw [if_pos h, find?_cons_of_pos (by simp [h.1, h.2])]
    rfl
  · rw [if_neg h, find?_cons_of_neg]
    · rfl
    · simpa using h

/-- A component that can be looked up and executed: it has a name that counts as present, a function and, if it is a
command, a pattern in the form in which it is stored. -/
structure Sound (role : Role) (c : Component) : Prop where
  name : c.config.property "name" = c.name
  truthy : c.name.truthy = true
  execute : (c.config.property "execute").isFunction = true
  pattern : role = .command → (c.config.property "pattern").isStoredPattern = true

theorem MadeFrom.sound {role : Role} (h : MadeFrom role config c) : Sound role c :=
  ⟨h.name, h.truthy, h.execute, fun hrole => isStoredPattern_of_normalizePattern (h.pattern hrole)⟩

namespace History

variable {s : State} {calls : List Call} {log : List (Option Registered)}

/-- **Under each name** stands what was registered last under it, and else what stood there before. -/
theorem find?_eq (h : History s calls log) (role : Role) (name : Datum) :
    find? name ((s.performEach calls).registry.of role)
      = (lastRegistered role name log).or (find? name (s.registry.of role)) := by
  induction h with
  | nil s => rfl
  | threw hcall h _ ih => rw [performEach_cons hcall, ih, lastRegistered_none, h.registry]
  | registered hcall hconfig h _ ih =>
    rw [performEach_cons hcall, ih, lastRegistered_some, h.binds.find?_eq, Option.or_assoc]
    congr 1
    split
    · rfl
    · rfl

theorem distinct (h : History s calls log) (hs : ∀ role, Distinct (s.registry.of role)) :
    ∀ role, Distinct ((s.performEach calls).registry.of role) := by
  induction h with
  | nil s => exact hs
  | threw hcall h _ ih =>
    rw [performEach_cons hcall]
    exact ih (by rw [h.registry]; exact hs)
  | registered hcall hconfig h _ ih =>
    rw [performEach_cons hcall]
    exact ih (h.binds.distinct hs)

theorem sound (h : History s calls log) (hs : ∀ role, ∀ c ∈ s.registry.of role, Sound role c) :
    ∀ role, ∀ c ∈ (s.performEach calls).registry.of role, Sound role c := by
  induction h with
  | nil s => exact hs
  | threw hcall h _ ih =>
    rw [performEach_cons hcall]
    exact ih (by rw [h.registry]; exact hs)
  | registered hcall hconfig h _ ih =>
    rw [performEach_cons hcall]
    refine ih fun role c hc => ?_
    rcases h.binds.mem_or_eq c hc with ⟨rfl, rfl⟩ | hold
    · exact h.made.sound
    · exact hs role c hold

/-- A component that came without a name has a number that was not given before. -/
theorem numbered (h : History s calls log) :
    ∀ r ∈ registrations log, r.isNamed = false → ∃ k, s.lastId < k ∧ r.component.name = .text (autoName k) := by
  induction h with
  | nil s =>
    intro r hr
    cases hr
  | threw hcall h _ ih =>
    intro r hr hnamed
    obtain ⟨k, hk, hname⟩ := ih r hr hnamed
    exact ⟨k, Nat.lt_of_le_of_lt h.lastId hk, hname⟩
  | registered hcall hconfig h _ ih =>
    rw [registrations_some]
    refine forall_mem_cons.mpr ⟨fun hnamed => ⟨_, Nat.lt_succ_self _, (h.unnamed hnamed).1⟩, fun r hr hnamed => ?_⟩
    obtain ⟨k, hk, hname⟩ := ih r hr hnamed
    refine ⟨k, Nat.lt_of_le_of_lt ?_ hk, hname⟩
    cases htruthy : Datum.truthy _ with
    | true => exact Nat.le_of_eq (h.named htruthy).2.symm
    | false => rw [(h.unnamed htruthy).2]; exact Nat.le_succ _

/-- **Components that came without names** have different ones. -/
theorem unnamed_distinct (h : History s calls log) : ((registrations log).filter fun r => !r.isNamed).Pairwise
    fun a b => a.component.name.sameKey b.component.name = false := by
  induction h with
  | nil s => exact .nil
  | threw hcall h _ ih => exact ih
  | @registered s s' call config c calls log hcall hconfig h hrest ih =>
    rw [registrations_some]
    cases htruthy : (config.property "name").truthy with
    | true => exact ih
    | false =>
      obtain ⟨hname, hlast⟩ := h.unnamed htruthy
      refine pairwise_cons.mpr ⟨fun r hr => ?_, ih⟩
      obtain ⟨hr, hnamed⟩ := mem_filter.mp hr
      obtain ⟨k, hk, hk'⟩ := hrest.numbered r hr (by simpa using hnamed)
      rw [hname, hk', Datum.sameKey, beq_eq_false_iff_ne]
      intro he
      have := autoName_injective he
      omega

end History

/-! ### Executing what was registered -/

def Component.run (c : Component) (context : Datum) : Execution :=
  match Context.ofDatum context with
  | .error e => ⟨.error e, .start⟩
  | .ok k =>
    conclude k (Progress.start.execute k (c.config.property "execute")).1
      (Progress.start.execute k (c.config.property "execute")).2

theorem component?_eq (r : Registry) (name : Datum) :
    r.component? name = (find? name (r.of .command)).or (find? name (r.of .action)) := by
  rw [Registry.component?, Registry.of, Registry.of]
  cases find? name r.commands with
  | none => rfl
  | some c => rfl

theorem execute_eq_run {r : Registry} (h : r.component? name = some c)
    (context : Datum) : r.execute name context = c.run context := by
  cases hcontext : Context.ofDatum context with
  | error e => simp only [Registry.execute, Component.run, h, hcontext]
  | ok k => simp only [Registry.execute, Component.run, h, hcontext]

/-- A registry is what a history makes of it. -/
structure Reflects (log : List (Option Registered)) (r : Registry) : Prop where
  last : ∀ role name, find? name (r.of role) = lastRegistered role name log
  distinct : ∀ role, Distinct (r.of role)
  sound : ∀ role, ∀ c ∈ r.of role, Sound role c
  unnamed : ((registrations log).filter fun r => !r.isNamed).Pairwise
    fun a b => a.component.name.sameKey b.component.name = false
  /-- A name stands for the command, and if there is none, for the action. -/
  executes : ∀ name c, (lastRegistered .command name log).or (lastRegistered .action name log) = some c →
    ∀ context, r.execute name context = c.run context

end PluginKit.Registrar
