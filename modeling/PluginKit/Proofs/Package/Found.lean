import PluginKit.Package.Disk
import PluginKit.Proofs.Console.Stops
import PluginKit.Proofs.Json.Emissions
import PluginKit.Proofs.Script.Responses

/-!
# Builds of accepted scripts

The package writer takes plugin data from anywhere and looks up their fields by name. What comes from an accepted script
has all of them: each component has one of four types together with the fields that this type asks for (`Carries`), so
that no step of a build, in memory or into a directory, misses a key, an operation or a place in a value
(`build_of_normalized`). A build may still end by other faults, such as a value that has no JSON form.
-/

namespace PluginKit

open List

variable {f : Fault} {v internalName config item : Value} {key source : Text} {c : Script.Command} {a : Script.Action}
  {fields : List (String × Value)} {entries : List (Value × Value)} {components : List Value} {d : Script.Definition}

/-! ### JSON texts -/

namespace Json

/-- The writing is not ended because something is missing in a value. -/
def Emission.FindsAll (e : Emission) : Prop := ∀ f, e.fault = some f → f.isLookup = false

theorem findsAll_scalarText {ascii : Bool} (h : scalarText? ascii v = some (.error f)) : f.isLookup = false := by
  unfold scalarText? at h
  split at h
  case h_4 => exact Value.findsAll_literal _ f (Option.some.inj h)
  case h_7 => cases h
  all_goals cases Option.some.inj h

theorem findsAll_keyText (v : Value) : Value.FindsAll (keyText v) := by
  unfold keyText
  split
  case h_5 => exact Value.findsAll_literal _
  case h_7 => exact Value.findsAll_error rfl
  all_goals exact Value.findsAll_ok _

theorem findsAll_emit (layout : Layout) (level : Nat) (around : List Nat) (v : Value) :
    (emit layout level around v).FindsAll := by
  have honly : WritesOnly (fun _ => True) (fun f => f.isLookup = false) layout :=
    ⟨fun _ _ => trivial, fun _ _ _ => trivial, findsAll_scalarText, findsAll_keyText _ _, rfl, fun _ => rfl⟩
  exact (meets_emit honly v level around).2

end Json

namespace Value

theorem get_of_item {w : Value} (h : v.item key = .ok w) (default : Value) : v.get key default = .ok w := by
  unfold item at h
  unfold get
  split at h
  · next entries hview =>
    split at h
    · next x hx =>
      cases h
      rw [hview]
      simp only [hx, Option.getD_some]
    · cases h
  all_goals cases h

end Value

namespace Package

open Console Files
open Value (str FindsAll findsAll_ok findsAll_error findsAll_mapM findsAll_display findsAll_literal findsAll_text
  findsAll_elements findsAll_item findsAll_get ok_bind item_record get_of_item get_record)
open Script (Action Definition Response PluginInfo)

/-! ### Components -/

/-- A component has one of the four types, and the fields that its type asks for; what is shown in the end is a text. -/
inductive Carries (component : Value) : Prop where
  | reply (text : Text) (htype : component.item "type" = .ok (str "reply"))
    (hreply : component.item "reply" = .ok (str text))
  | python (code : Text) (htype : component.item "type" = .ok (str "python"))
    (hcode : component.item "python" = .ok (str code))
  | prompt (text : Text) (htype : component.item "type" = .ok (str "llm_prompt"))
    (hprompt : component.item "llm_prompt" = .ok (str text))
  | page (request : Value) (text : Text) (htype : component.item "type" = .ok (str "http_get"))
    (hget : component.item "http_get" = .ok request) (hreply : component.item "reply" = .ok (str text))

theorem carries_of_shows {component : Value} {r : Response} (hshows : Script.Shows component r) (h : r.Plain) :
    Carries component := by
  have hitem := hshows.item
  cases r with
  | reply text => exact .reply text (hitem "type" (by decide) _ rfl) (hitem "reply" (by decide) _ rfl)
  | python code => exact .python code (hitem "type" (by decide) _ rfl) (hitem "python" (by decide) _ rfl)
  | prompt text template => exact .prompt text (hitem "type" (by decide) _ rfl) (hitem "llm_prompt" (by decide) _ rfl)
  | httpGet request shown =>
    obtain ⟨text, rfl⟩ := h
    exact .page request text (hitem "type" (by decide) _ rfl) (hitem "http_get" (by decide) _ rfl)
      (hitem "reply" (by decide) _ rfl)

theorem carries_command (h : c.response.Plain) : Carries c.toValue :=
  carries_of_shows (Script.shows_command c) h

theorem carries_action (h : a.response.Plain) : Carries a.toValue :=
  carries_of_shows (Script.shows_action a) h

theorem findsAll_requestUrl (v : Value) : FindsAll (requestUrl v) := by
  unfold requestUrl
  split
  · exact findsAll_ok _
  · exact (findsAll_display v).map _

theorem findsAll_commandBody {command : Value} (h : Carries command) (className : Text) :
    FindsAll (commandBody className command) := by
  unfold commandBody
  cases h with
  | reply text htype hreply =>
    rw [get_of_item htype, ok_bind, if_pos (by decide), hreply]
    exact findsAll_ok _
  | python code htype hcode =>
    rw [get_of_item htype, ok_bind, if_neg (by decide), if_pos (by decide), hcode]
    exact findsAll_ok _
  | prompt text htype hprompt =>
    rw [get_of_item htype, ok_bind, if_neg (by decide), if_neg (by decide), if_neg (by decide), if_pos (by decide), hprompt]
    exact findsAll_ok _
  | page request text htype hget hreply =>
    rw [get_of_item htype, ok_bind, if_neg (by decide), if_neg (by decide), if_pos (by decide), hget, ok_bind,
      get_of_item hreply]
    exact (findsAll_requestUrl request).bind fun url _ => (findsAll_text url).bind fun _ _ => findsAll_ok _

theorem findsAll_actionBody {action : Value} (h : Carries action) (className name : Text) :
    FindsAll (actionBody className name action) := by
  unfold actionBody
  cases h with
  | reply text htype hreply =>
    rw [get_of_item htype, ok_bind, if_pos (by decide), hreply]
    exact findsAll_ok _
  | python code htype hcode =>
    rw [get_of_item htype, ok_bind, if_neg (by decide), if_pos (by decide), hcode]
    exact findsAll_ok _
  | prompt text htype hprompt =>
    rw [get_of_item htype, ok_bind, if_neg (by decide), if_neg (by decide), if_neg (by decide), if_pos (by decide), hprompt]
    exact findsAll_ok _
  | page request text htype hget hreply =>
    rw [get_of_item htype, ok_bind, if_neg (by decide), if_neg (by decide), if_pos (by decide), hget, ok_bind,
      get_of_item hreply]
    exact (findsAll_requestUrl request).bind fun url _ => (findsAll_display url).bind fun _ _ => findsAll_ok _

theorem findsAll_commandClass (h : c.response.Plain) (start : Text) : FindsAll (commandClass start c.toValue) := by
  have hinternal : c.toValue.item "internal_name" = .ok (str c.internalName) := item_record rfl
  have hname : c.toValue.item "name" = .ok (str c.name) := item_record rfl
  have hmatch : c.toValue.item "match" = .ok (str c.matchText) := item_record rfl
  have hpattern : c.toValue.item "pattern" = .ok (str c.pattern) := item_record rfl
  have hdescription : descriptionOf c.toValue (str c.name) = .ok c.description := get_record _ _ _
  unfold commandClass
  simp only [hinternal, hname, hmatch, hpattern, hdescription, ok_bind]
  exact (findsAll_text _).bind fun _ _ => (findsAll_display _).bind fun _ _ => (findsAll_display _).bind fun _ _ =>
    (findsAll_display _).bind fun _ _ => (findsAll_display _).bind fun _ _ =>
      (findsAll_commandBody (carries_command h) _).bind fun _ _ => findsAll_ok _

theorem findsAll_actionClass (h : a.response.Plain) (hparams : ∃ entries, a.params.view = .dict entries)
    (start : Text) : FindsAll (actionClass start a.toValue) := by
  obtain ⟨entries, hparams⟩ := hparams
  have hinternal : a.toValue.item "internal_name" = .ok (str a.internalName) := item_record rfl
  have hname : a.toValue.item "name" = .ok (str a.name) := item_record rfl
  have hwhen : a.toValue.item "when" = .ok a.triggers := item_record rfl
  have hget : a.toValue.get "params" (.dict []) = .ok a.params := get_record _ _ _
  have htypes : a.toValue.get "types" (.list [str "text"]) = .ok a.types := get_record _ _ _
  have hdescription : descriptionOf a.toValue (str a.name) = .ok a.description := get_record _ _ _
  have hentries : a.params.asEntries = .ok entries := by rw [Value.asEntries, hparams]
  unfold actionClass
  simp only [hinternal, hname, hwhen, hget, htypes, hdescription, hentries, ok_bind]
  exact (findsAll_text _).bind fun _ _ => (findsAll_display _).bind fun _ _ => (findsAll_display _).bind fun _ _ =>
    (findsAll_literal _).bind fun _ _ => (findsAll_literal _).bind fun _ _ => (findsAll_literal _).bind fun _ _ =>
      (findsAll_elements _).bind fun _ _ => (findsAll_mapM fun _ _ => findsAll_display _).bind fun _ _ =>
        (findsAll_actionBody (carries_action h) _ _).bind fun _ _ => findsAll_ok _

/-! ### Files -/

def partsOf (d : Definition) : Parts :=
  ⟨d.plugin.toValue, .list (d.commands.map Script.Command.toValue), .list (d.actions.map Action.toValue), d.config⟩

theorem parts_toValue (d : Definition) : Parts.ofValue d.toValue = .ok (partsOf d) := by
  have hplugin : d.toValue.item "plugin" = .ok d.plugin.toValue := item_record rfl
  have hcommands : d.toValue.get "commands" (.list []) = .ok (partsOf d).commands := get_record _ _ _
  have hactions : d.toValue.get "actions" (.list []) = .ok (partsOf d).actions := get_record _ _ _
  have hconfig : d.toValue.get "config" (.dict []) = .ok d.config := get_record _ _ _
  unfold Parts.ofValue
  simp only [hplugin, hcommands, hactions, hconfig, ok_bind]
  rfl

theorem findsAll_components {α β : Type} {xs : List α} {g : α → Value} {line : Value → Outcome β} {vs : List Value}
    (hvs : (Value.list (xs.map g)).elements = .ok vs) (h : ∀ x ∈ xs, FindsAll (line (g x))) : FindsAll (vs.mapM line) := by
  cases hvs
  exact findsAll_mapM (forall_mem_map.mpr h)

theorem findsAll_manifestComponent {name : Value}
    (hinternal : fields.lookup "internal_name" = some internalName) (hname : fields.lookup "name" = some name)
    (role : Role) : FindsAll (manifestComponent role (.record fields)) :=
  (findsAll_item hinternal).bind fun _ _ => (findsAll_item hname).bind fun _ _ => (findsAll_get _ _ _).bind fun _ _ =>
    findsAll_ok _

theorem findsAll_manifest (d : Definition) :
    FindsAll (manifest (partsOf d).plugin (partsOf d).commands (partsOf d).actions) := by
  have hcomponents : FindsAll (manifestComponents (partsOf d).commands (partsOf d).actions) :=
    (findsAll_elements _).bind fun _ hcommands =>
      (findsAll_components hcommands fun _ _ => findsAll_manifestComponent rfl rfl .command).bind fun _ _ =>
    (findsAll_elements _).bind fun _ hactions =>
      (findsAll_components hactions fun _ _ => findsAll_manifestComponent rfl rfl .action).bind fun _ _ => findsAll_ok _
  exact hcomponents.bind fun _ _ => (findsAll_item rfl).bind fun _ _ => (findsAll_item rfl).bind fun _ _ =>
    (findsAll_item rfl).bind fun _ _ => (findsAll_item rfl).bind fun _ _ => (findsAll_get _ _ _).bind fun _ _ =>
      (findsAll_get _ _ _).bind fun _ _ => findsAll_ok _

/-! ### The configuration -/

theorem findsAll_configField (entry : Value × Value) : FindsAll (configField entry) :=
  (findsAll_display _).bind fun _ _ => (findsAll_literal _).bind fun _ _ => (findsAll_display _).bind fun _ _ =>
    findsAll_ok _

theorem findsAll_configSection (entry : Value × Value) : FindsAll (configSection entry) := by
  refine (findsAll_display _).bind fun _ _ => ?_
  split
  · exact (findsAll_mapM fun field _ => findsAll_configField field).bind fun _ _ => findsAll_ok _
  · exact findsAll_ok _

theorem entriesFor_of_view (h : v.view = .dict entries) (member : Text) : v.entriesFor member = .ok entries := by
  rw [Value.entriesFor, h]

theorem findsAll_configSections (h : config.view = .dict entries) : FindsAll (configSections? config) := by
  unfold configSections?
  split
  · rw [entriesFor_of_view h, ok_bind]
    exact (findsAll_mapM fun entry _ => findsAll_configSection entry).bind fun _ _ => findsAll_ok _
  · exact findsAll_ok _

theorem findsAll_noteSection (entry : Value × Value) : FindsAll (noteSection entry) := by
  have hfields : FindsAll (noteFields entry.2) := by
    unfold noteFields
    split
    · exact findsAll_mapM fun field _ => (findsAll_display _).bind fun _ _ => (findsAll_display _).bind fun _ _ =>
        (findsAll_display _).bind fun _ _ => findsAll_ok _
    · exact findsAll_ok _
  exact (findsAll_display _).bind fun _ _ => hfields.bind fun _ _ => findsAll_ok _

theorem findsAll_configNote (h : config.view = .dict entries) : FindsAll (configNote config) := by
  unfold configNote
  rw [entriesFor_of_view h, ok_bind]
  exact (findsAll_mapM fun entry _ => findsAll_noteSection entry).bind fun _ _ => findsAll_ok _

/-! ### The module -/

theorem findsAll_anyFetchesPages (h : ∀ v ∈ components, ∃ fields, v = .record fields) :
    FindsAll (anyFetchesPages components) := by
  induction components with
  | nil => exact findsAll_ok _
  | cons v components ih =>
    obtain ⟨⟨fields, rfl⟩, hrest⟩ := forall_mem_cons.mp h
    refine FindsAll.bind ((findsAll_get _ _ _).map _) fun fetches _ => ?_
    split
    · exact findsAll_ok _
    · exact ih hrest

theorem findsAll_eitherFetchesPages (d : Definition) :
    FindsAll (eitherFetchesPages (partsOf d).commands (partsOf d).actions) := by
  show FindsAll (anyFetchesPages (d.commands.map Script.Command.toValue ++ d.actions.map Action.toValue))
  apply findsAll_anyFetchesPages
  intro v hv
  rcases mem_append.mp hv with hv | hv <;> obtain ⟨c, -, rfl⟩ := mem_map.mp hv <;> exact ⟨_, rfl⟩

theorem findsAll_componentRow (h : fields.lookup "internal_name" = some internalName) (start : Text) (role : Role) :
    FindsAll (componentRow start role (.record fields)) :=
  (findsAll_item h).bind fun _ _ => (findsAll_text _).bind fun _ _ => findsAll_ok _

theorem findsAll_pluginClass (h : d.Complete) (start : Text) :
    FindsAll (PluginClass.ofValues start (partsOf d).commands (partsOf d).actions d.config) := by
  obtain ⟨entries, hconfig⟩ := h.config
  exact (findsAll_eitherFetchesPages d).bind fun _ _ => (findsAll_configSections hconfig).bind fun _ _ =>
    (findsAll_elements _).bind fun _ hcommands =>
      (findsAll_components hcommands fun _ _ => findsAll_componentRow rfl start .command).bind fun _ _ =>
    (findsAll_elements _).bind fun _ hactions =>
      (findsAll_components hactions fun _ _ => findsAll_componentRow rfl start .action).bind fun _ _ => findsAll_ok _

theorem findsAll_module (h : d.Complete) :
    FindsAll (Module.ofValues (partsOf d).plugin (partsOf d).commands (partsOf d).actions d.config) :=
  (findsAll_item rfl).bind fun _ _ => (findsAll_text _).bind fun _ _ => (findsAll_item rfl).bind fun _ _ =>
    (findsAll_display _).bind fun _ _ => (findsAll_item rfl).bind fun _ _ => (findsAll_display _).bind fun _ _ =>
    (findsAll_item rfl).bind fun _ _ => (findsAll_display _).bind fun _ _ => (findsAll_item rfl).bind fun _ _ =>
    (findsAll_display _).bind fun _ _ => (findsAll_eitherFetchesPages d).bind fun _ _ =>
    (findsAll_elements _).bind fun _ hcommands =>
      (findsAll_components hcommands fun c hc => findsAll_commandClass (h.commands c hc) _).bind fun _ _ =>
    (findsAll_elements _).bind fun _ hactions =>
      (findsAll_components hactions fun a ha => findsAll_actionClass (h.actions a ha) (h.params a ha) _).bind fun _ _ =>
    (findsAll_pluginClass h _).bind fun _ _ => findsAll_ok _

/-! ### The read-me file -/

theorem findsAll_readmeList {line : Value → Outcome Text}
    (h : ∀ v ∈ components, FindsAll (line v)) (title : Text) : FindsAll (readmeList title (.list components) line) := by
  unfold readmeList
  split
  · exact (findsAll_mapM h).bind fun _ _ => findsAll_ok _
  · exact findsAll_ok _

theorem findsAll_readme (d : Definition) (directory : Text) :
    FindsAll (readme directory (partsOf d).plugin (partsOf d).commands (partsOf d).actions) := by
  have hcommands : FindsAll (readmeList "## 命令列表" (partsOf d).commands readmeCommand) := by
    refine findsAll_readmeList (fun v hv => ?_) _
    obtain ⟨c, -, rfl⟩ := mem_map.mp hv
    exact (findsAll_item rfl).bind fun _ _ => (findsAll_display _).bind fun _ _ => (findsAll_item rfl).bind fun _ _ =>
      (findsAll_get _ _ _).bind fun _ _ => (findsAll_display _).bind fun _ _ => findsAll_ok _
  have hactions : FindsAll (readmeList "## 自主行为（Action）" (partsOf d).actions readmeAction) := by
    refine findsAll_readmeList (fun v hv => ?_) _
    obtain ⟨a, -, rfl⟩ := mem_map.mp hv
    exact (findsAll_item rfl).bind fun _ _ => (Value.findsAll_front 2 _).bind fun _ _ =>
      (Value.findsAll_joinTexts _ _).bind fun _ _ => (findsAll_item rfl).bind fun _ _ =>
        (findsAll_display _).bind fun _ _ => findsAll_ok _
  refine (findsAll_item rfl).bind fun _ _ => (findsAll_display _).bind fun _ _ => (findsAll_item rfl).bind fun _ _ =>
    (findsAll_item rfl).bind fun _ _ => (findsAll_display _).bind fun _ _ => (findsAll_item rfl).bind fun _ _ =>
    (findsAll_display _).bind fun _ _ => hcommands.bind fun _ _ => hactions.bind fun _ _ => ?_
  split
  · exact findsAll_ok _
  · exact findsAll_error rfl

/-! ### Builds -/

/-- A build is not ended because something is missing in a value. -/
def Build.FindsAll (b : Build) : Prop := ∀ f, b.fault = some f → f.isLookup = false

theorem Build.FindsAll.andThen {a b : Build} (ha : a.FindsAll) (hb : b.FindsAll) : (a.andThen b).FindsAll := by
  intro f h
  unfold Build.andThen at h
  split at h
  · exact ha f h
  · exact hb f h

theorem findsAll_file {text : Outcome Text} (h : FindsAll text) (name : Text) : (Build.file name text).FindsAll := by
  intro f hf
  unfold Build.file at hf
  split at hf
  · cases hf
    exact h _ rfl
  · split at hf
    · cases hf
    · cases hf
      rfl

theorem findsAll_writablePieces {pieces : List Text} {fault : Option Fault} (h : ∀ f, fault = some f → f.isLookup = false)
    (hf : (writablePieces pieces fault).2 = some f) : f.isLookup = false := by
  induction pieces with
  | nil => exact h f hf
  | cons p pieces ih =>
    unfold writablePieces at hf
    split at hf
    · cases hf
      rfl
    · exact ih hf

theorem findsAll_jsonFileOf {v : Outcome Value} (h : FindsAll v) (name : Text) : (jsonFileOf name v).FindsAll := by
  intro f hf
  cases v with
  | error g =>
    cases hf
    exact h f rfl
  | ok v => exact findsAll_writablePieces (Json.findsAll_emit Json.pretty 0 [] v) hf

theorem findsAll_build (h : d.Complete) (directory : Text) : ((partsOf d).build directory).FindsAll := by
  obtain ⟨entries, hconfig⟩ := h.config
  refine (findsAll_jsonFileOf (findsAll_manifest d) _).andThen
    ((findsAll_file ((findsAll_module h).map _) _).andThen (Build.FindsAll.andThen ?_
      (findsAll_file (findsAll_readme d directory) _)))
  split
  · exact findsAll_file (findsAll_configNote hconfig) _
  · intro f hf
    cases hf

theorem steady_writeFiles (directory : Path) (files : List (Text × Text)) : Steady Stop.IsPlain (writeFiles directory files) := by
  induction files with
  | nil => exact steady_pure _
  | cons file files ih =>
    obtain ⟨name, text⟩ := file
    exact (steady_writeFile _ _).bind fun _ => ih

theorem steady_write {b : Build} (h : b.FindsAll) (directory : Path) : Steady Stop.IsPlain (b.write directory) := by
  refine (steady_writeFiles directory b.files).bind fun _ => ?_
  split
  · next f hf => exact steady_fail (h f hf)
  · exact steady_pure _

theorem findsAll_report (p : Parts) (path directory : Text) : FindsAll (p.report path directory) :=
  (Value.findsAll_length _).bind fun _ _ => (Value.findsAll_length _).bind fun _ _ => findsAll_ok _

theorem stopsOnly_buildInto (h : d.Complete) (directory : Path) :
    StopsOnly Stop.IsPlain (buildInto directory d.toValue) := by
  have hrest : Steady Stop.IsPlain (do
      ((partsOf d).build directory.name).write directory
      Session.sayAll (← Session.lift ((partsOf d).report directory.text directory.name))) :=
    (steady_write (findsAll_build h _) directory).bind fun _ =>
      (steady_lift fun f hf => findsAll_report _ _ _ f hf).bind fun lines => steady_sayAll lines
  unfold buildInto
  rw [parts_toValue]
  exact ((steady_ensureDirectories directory).bind fun _ => hrest).stops

/-! ### Accepted scripts -/

def keptTrigger : Script.Section → Value → Value
  | .commands, trigger => trigger
  | .actions, trigger => Script.triggerList trigger

/-- The component has the name and the trigger of an item of a script. -/
def MadeFrom (part : Script.Section) (item component : Value) : Prop :=
  ∃ entries name trigger, item.view = .dict entries ∧ Value.field? "name" entries = some name ∧
    Value.field? (Script.triggerKey part) entries = some trigger ∧ component.item "name" = .ok name ∧
    component.item (Script.triggerKey part) = .ok (keptTrigger part trigger)

theorem field?_of_presentField? (h : Script.presentField? key entries = some v) : Value.field? key entries = some v :=
  (Option.filter_eq_some_iff.mp h).1

theorem madeFrom_command
    (h : ∃ i, Script.Command.ofValue source i item = .ok c) : MadeFrom .commands item c.toValue := by
  obtain ⟨i, h⟩ := h
  obtain ⟨entries, hv, hname, hmatch, -⟩ := Script.command_ofValue_ok h
  exact ⟨entries, _, _, hv, field?_of_presentField? hname, field?_of_presentField? hmatch, item_record rfl,
    item_record rfl⟩

theorem madeFrom_action (h : ∃ i, Action.ofValue source i item = .ok a) : MadeFrom .actions item a.toValue := by
  obtain ⟨i, h⟩ := h
  obtain ⟨entries, trigger, hv, hname, hwhen, htriggers, -⟩ := Script.action_ofValue_ok h
  refine ⟨entries, _, trigger, hv, field?_of_presentField? hname, field?_of_presentField? hwhen, item_record rfl, ?_⟩
  rw [keptTrigger, ← htriggers]
  exact item_record rfl

/-- **Accepted scripts can be built without a look-up that fails.** Their data hold one component for each item of a
section, in the order of the items, with the fields that its type asks for; and a build of the data, in memory or into
a directory, ends early only by faults that are not about a missing key, operation or place. -/
theorem build_of_normalized {source : Text} {v data : Value} (h : Script.normalize source v = .ok data) :
    (∃ entries commandItems actionItems commands actions, v.view = .dict entries ∧
      Script.IsSection .commands entries commandItems ∧ Script.IsSection .actions entries actionItems ∧
      data.item "commands" = .ok (.list commands) ∧ data.item "actions" = .ok (.list actions) ∧
      List.Forall₂ (MadeFrom .commands) commandItems commands ∧ List.Forall₂ (MadeFrom .actions) actionItems actions ∧
      ∀ c ∈ commands ++ actions, Carries c) ∧
    FindsAll (inMemory data) ∧ ∀ directory, StopsOnly Stop.IsPlain (buildData directory data) := by
  obtain ⟨d, hd, rfl⟩ := Value.map_eq_ok.mp h
  have hcomplete := Script.complete_of_ofValue hd
  refine ⟨?_, ?_, fun directory => stopsOnly_buildInto hcomplete directory⟩
  · obtain ⟨entries, plugin, commandItems, actionItems, hv, -, -, hcommandItems, hcommands, hactionItems, hactions, -⟩ :=
      Script.ofValue_ok hd
    refine ⟨entries, commandItems, actionItems, _, _, hv, hcommandItems, hactionItems, item_record rfl,
      item_record rfl, List.forall₂_map_right_iff.mpr (hcommands.imp fun _ _ => madeFrom_command),
      List.forall₂_map_right_iff.mpr (hactions.imp fun _ _ => madeFrom_action), ?_⟩
    intro c hc
    rcases List.mem_append.mp hc with hc | hc
    · obtain ⟨command, hcommand, rfl⟩ := List.mem_map.mp hc
      exact carries_command (hcomplete.commands command hcommand)
    · obtain ⟨action, haction, rfl⟩ := List.mem_map.mp hc
      exact carries_action (hcomplete.actions action haction)
  · have hbuild := findsAll_build hcomplete memoryDirectory
    unfold inMemory build
    rw [requireData, ok_bind, parts_toValue]
    simp only
    split
    · next f hf => exact findsAll_error (hbuild f hf)
    · exact findsAll_ok _
    · exact fun hnull => by cases hnull

/-- A script with a command that fetches a page and an action with a single trigger. -/
def pageScript : Value := .record [("plugin", .record [("name", str "p")]),
  ("commands", .list [.record [("name", str "w"), ("match", str "/w"), ("http_get", str "http://x")]]),
  ("actions", .list [.record [("name", str "g"), ("when", str "hi"), ("python", str "reply = 1")]])]

theorem pageScript_built : ∃ data commands actions, Script.normalize "<data>" pageScript = .ok data ∧
    data.item "commands" = .ok (.list commands) ∧ data.item "actions" = .ok (.list actions) ∧
    commands.length = 1 ∧ actions.length = 1 ∧ (∀ c ∈ commands ++ actions, Carries c) ∧
    FindsAll (inMemory data) ∧ ∀ directory, StopsOnly Stop.IsPlain (buildData directory data) := by
  have hnormalize : ∃ data, Script.normalize "<data>" pageScript = .ok data := ⟨_, rfl⟩
  obtain ⟨data, h⟩ := hnormalize
  obtain ⟨⟨entries, commandItems, actionItems, commands, actions, hv, hcommandItems, hactionItems, hcommands, hactions,
    hcommand, haction, hcarries⟩, hmemory, hdisk⟩ := build_of_normalized h
  refine ⟨data, commands, actions, h, hcommands, hactions, ?_, ?_, hcarries, hmemory, hdisk⟩
  · cases hv
    rw [← hcommand.length_eq]
    rcases hcommandItems with hmissing | ⟨hlist, hview⟩
    · cases hmissing
    · cases hlist
      cases hview
      rfl
  · cases hv
    rw [← haction.length_eq]
    rcases hactionItems with hmissing | ⟨hlist, hview⟩
    · cases hmissing
    · cases hlist
      cases hview
      rfl

end Package

end PluginKit
