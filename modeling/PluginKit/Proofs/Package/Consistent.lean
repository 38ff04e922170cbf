import PluginKit.Proofs.Package.Emitted
import PluginKit.Proofs.Package.Files

/-!
# A plugin and its manifest

The manifest of a plugin, the classes of its components and the rows that list them are made from the same
components, each on its own. They agree with each other one by one (`Aligned`), and everything that the module uses is
imported before, exactly if it is needed (`Consistent`). This holds for every build into a directory that is
completed (`buildInto_consistent`).
-/

namespace PluginKit.Package

open Value (str bind_eq_ok mapM_eq_ok_iff)
open Console Files List

variable {c : ComponentClass} {role : Role} {component entry commands actions plugin v config : Value} {start : Text}
  {components xs ys : List Value} {classes : List ComponentClass} {b : Bool} {m : Module}

/-! ### One component -/

def baseText : Role → Text
  | .command => "(BaseCommand):"
  | .action => "(BaseAction):"

def classLine (role : Role) (className : Text) : Line := .code 0 ("class " ++ className ++ baseText role)

def nameLine (role : Role) (name : Text) : Line := .assign 1 (role.name ++ "_name") (.quoted name)

/-- What a component has in the manifest, its class and its row: the same identifier in the first two, and the same
name of the only class that begins there in the last two. -/
inductive Agree (role : Role) : Value → Value → List Line → Line → Prop where
  | intro (component description : Value) (name className : Text) (comment note : Line) (rest : List Line)
    (hname : component.item "internal_name" = .ok (str name)) (hrest : ∀ l ∈ rest, ∀ r n, l ≠ classLine r n) :
    Agree role component
      (.record [("type", str role.name), ("name", str name), ("description", description)])
      (comment :: classLine role className :: note :: nameLine role name :: rest)
      (ComponentRow.line ⟨role, className⟩)

/-- Components, their entries in the manifest, their classes and their rows, one by one. -/
inductive Aligned (role : Role) : List Value → List Value → List (List Line) → List Line → Prop where
  | nil : Aligned role [] [] [] []
  | cons {component entry : Value} {block : List Line} {row : Line} {components entries : List Value}
    {blocks : List (List Line)} {rows : List Line} (h : Agree role component entry block row)
    (hrest : Aligned role components entries blocks rows) :
    Aligned role (component :: components) (entry :: entries) (block :: blocks) (row :: rows)

def classBlock (c : ComponentClass) : List Line := c.lines ++ [.blank]

theorem ne_classLine_of_level {l : Line} (h : 0 < l.level) (role : Role) (name : Text) : l ≠ classLine role name := by
  rintro rfl
  cases h

theorem blank_ne_classLine (role : Role) (name : Text) : Line.blank ≠ classLine role name := by
  intro h
  have htext : Statement.code "" = Statement.code ("class " ++ name ++ baseText role) := congrArg Line.statement h
  cases htext

theorem classBlock_eq (hbody : ∀ l ∈ c.body, 2 ≤ l.level) :
    ∃ comment note rest, classBlock c
      = comment :: classLine c.role c.className :: note :: nameLine c.role c.componentName :: rest ∧
      ∀ l ∈ rest, ∀ r n, l ≠ classLine r n := by
  have hhead : 0 < c.methodHead.level := by
    unfold ComponentClass.methodHead
    cases c.role with
    | command => exact Nat.one_pos
    | action => exact Nat.one_pos
  have htail : ∀ l ∈ [Line.blank, c.methodHead] ++ c.body ++ [.blank], ∀ r n, l ≠ classLine r n := by
    simp only [forall_mem_append, forall_mem_cons]
    refine ⟨⟨⟨blank_ne_classLine, ne_classLine_of_level hhead, nofun⟩, fun l hl => ?_⟩, blank_ne_classLine, nofun⟩
    exact ne_classLine_of_level (lt_of_lt_of_le Nat.two_pos (hbody l hl))
  have hattribute : ∀ name value, ∀ r n, Line.assign 1 name value ≠ classLine r n :=
    fun _ _ => ne_classLine_of_level Nat.one_pos
  unfold classBlock ComponentClass.lines ComponentClass.attributeLines ComponentClass.role at *
  cases c.trigger with
  | command matchText pattern =>
    refine ⟨_, _, .assign 1 "command_description" (.quoted c.description) ::
      .assign 1 "command_pattern" (.raw pattern) :: _, rfl, ?_⟩
    exact forall_mem_cons.mpr ⟨hattribute _ _, forall_mem_cons.mpr ⟨hattribute _ _, htail⟩⟩
  | action parameters triggers types =>
    refine ⟨_, _, .assign 1 "action_description" (.quoted c.description) ::
      .assign 1 "activation_type" (.plain "ActionActivationType.ALWAYS") ::
      .assign 1 "action_parameters" (.plain parameters) :: .assign 1 "action_require" (.plain triggers) ::
      .assign 1 "associated_types" (.plain types) :: _, rfl, ?_⟩
    simp only [forall_mem_cons]
    exact ⟨hattribute _ _, hattribute _ _, hattribute _ _, hattribute _ _, hattribute _ _, htail⟩

theorem manifestComponent_ok (h : manifestComponent role component = .ok entry) :
    ∃ name description, component.item "internal_name" = .ok name ∧
      entry = .record [("type", str role.name), ("name", name), ("description", description)] := by
  obtain ⟨name, hname, h⟩ := bind_eq_ok.mp h
  obtain ⟨title, -, h⟩ := bind_eq_ok.mp h
  obtain ⟨description, -, h⟩ := bind_eq_ok.mp h
  cases h
  exact ⟨name, description, hname, rfl⟩

theorem agree_of_ok {row : ComponentRow}
    (he : manifestComponent role component = .ok entry) (hc : componentClass start role component = .ok c)
    (hr : componentRow start role component = .ok row) : Agree role component entry (classBlock c) row.line := by
  obtain ⟨name, description, hname, rfl⟩ := manifestComponent_ok he
  have hdescribes := componentClass_ok hc
  obtain ⟨rowName, hrowName, rfl⟩ := componentRow_ok hr
  rw [hdescribes.name] at hname hrowName
  cases hname
  cases hrowName
  obtain ⟨comment, note, rest, hblock, hrest⟩ := classBlock_eq hdescribes.body.level
  rw [hblock, hdescribes.hasRole, ← hdescribes.className]
  exact .intro component description _ _ comment note rest hdescribes.name hrest

/-- **All components**: what was made from the same components one by one is aligned. -/
theorem aligned_of_ok {entries : List Value}
    {rows : List ComponentRow} (he : List.Forall₂ (fun c e => manifestComponent role c = .ok e) components entries)
    (hc : List.Forall₂ (fun c k => componentClass start role c = .ok k) components classes)
    (hr : List.Forall₂ (fun c r => componentRow start role c = .ok r) components rows) :
    Aligned role components entries (classes.map classBlock) (rows.map ComponentRow.line) := by
  induction he generalizing classes rows with
  | nil =>
    cases hc
    cases hr
    exact .nil
  | cons hentry _ ih =>
    cases hc with
    | cons hclass hc =>
      cases hr with
      | cons hrow hr => exact .cons (agree_of_ok hentry hclass hrow) (ih hc hr)

/-! ### Fetching pages -/

def SomeFetches (components : List Value) : Prop :=
  ∃ c ∈ components, c.get "type" .null = .ok (str "http_get")

theorem SomeFetches.mono (h : SomeFetches xs) (hsub : xs ⊆ ys) : SomeFetches ys := by
  obtain ⟨c, hc, he⟩ := h
  exact ⟨c, hsub hc, he⟩

theorem fetchesPages_ok (h : fetchesPages component = .ok b) :
    b = true ↔ component.get "type" .null = .ok (str "http_get") := by
  obtain ⟨type, htype, rfl⟩ := Value.map_eq_ok.mp h
  rw [Value.isStr_iff, htype]
  exact ⟨fun h => by rw [h], Except.ok.inj⟩

theorem anyFetchesPages_ok (h : anyFetchesPages components = .ok b) : b = true ↔ SomeFetches components := by
  induction components with
  | nil =>
    cases h
    exact ⟨nofun, nofun⟩
  | cons c components ih =>
    obtain ⟨first, hfirst, h⟩ := bind_eq_ok.mp h
    have hc := fetchesPages_ok hfirst
    cases first with
    | true =>
      cases h
      exact ⟨fun _ => ⟨c, mem_cons_self, hc.mp rfl⟩, fun _ => rfl⟩
    | false =>
      have hnot : ¬ c.get "type" .null = .ok (str "http_get") := fun he => Bool.false_ne_true (hc.mpr he)
      rw [ih h]
      constructor
      · exact fun hsome => hsome.mono (subset_cons_self c components)
      · rintro ⟨d, hd, he⟩
        rcases mem_cons.mp hd with rfl | hd
        · exact absurd he hnot
        · exact ⟨d, hd, he⟩

theorem eitherFetchesPages_ok (h : eitherFetchesPages commands actions = .ok b) (hx : commands.elements = .ok xs)
    (hy : actions.elements = .ok ys) : b = true ↔ SomeFetches (xs ++ ys) := by
  obtain ⟨both, hboth, h⟩ := bind_eq_ok.mp h
  obtain ⟨all, hall, h⟩ := bind_eq_ok.mp h
  obtain ⟨xs', ys', hx', hy', hall'⟩ := Value.elements_append hboth
  rw [hx] at hx'
  rw [hy] at hy'
  rw [hall] at hall'
  cases hx'
  cases hy'
  cases hall'
  exact anyFetchesPages_ok h

/-! ### The manifest and the module -/

def Lists (manifest : Value) (entries : List Value) : Prop :=
  ∃ info, manifest.item "plugin_info" = .ok info ∧ info.item "components" = .ok (.list entries)

theorem manifest_ok (h : manifest plugin commands actions = .ok v) :
    ∃ xs ys commandEntries actionEntries, commands.elements = .ok xs ∧ actions.elements = .ok ys ∧
      List.Forall₂ (fun c e => manifestComponent .command c = .ok e) xs commandEntries ∧
      List.Forall₂ (fun c e => manifestComponent .action c = .ok e) ys actionEntries ∧
      Lists v (commandEntries ++ actionEntries) := by
  obtain ⟨components, hcomponents, h⟩ := bind_eq_ok.mp h
  obtain ⟨xs, hx, hcomponents⟩ := bind_eq_ok.mp hcomponents
  obtain ⟨commandEntries, hcommands, hcomponents⟩ := bind_eq_ok.mp hcomponents
  obtain ⟨ys, hy, hcomponents⟩ := bind_eq_ok.mp hcomponents
  obtain ⟨actionEntries, hactions, hcomponents⟩ := bind_eq_ok.mp hcomponents
  cases hcomponents
  obtain ⟨name, -, h⟩ := bind_eq_ok.mp h
  obtain ⟨version, -, h⟩ := bind_eq_ok.mp h
  obtain ⟨description, -, h⟩ := bind_eq_ok.mp h
  obtain ⟨author, -, h⟩ := bind_eq_ok.mp h
  obtain ⟨keywords, -, h⟩ := bind_eq_ok.mp h
  obtain ⟨categories, -, h⟩ := bind_eq_ok.mp h
  cases h
  refine ⟨xs, ys, commandEntries, actionEntries, hx, hy, mapM_eq_ok_iff.mp hcommands, mapM_eq_ok_iff.mp hactions,
    .record [("is_built_in", .bool false), ("plugin_type", str "general"),
      ("components", .list (commandEntries ++ actionEntries))], ?_, ?_⟩
  · simp [Value.item, Value.record, Value.view, Value.field?, Value.isStr, Text.ofString]
  · simp [Value.item, Value.record, Value.view, Value.field?, Value.isStr, Text.ofString]

theorem pluginClass_ok {plugin : PluginClass}
    (h : PluginClass.ofValues start commands actions config = .ok plugin) (hx : commands.elements = .ok xs)
    (hy : actions.elements = .ok ys) : ∃ commandRows actionRows,
      List.Forall₂ (fun c r => componentRow start .command c = .ok r) xs commandRows ∧
      List.Forall₂ (fun c r => componentRow start .action c = .ok r) ys actionRows ∧
      plugin.rows = commandRows ++ actionRows ∧ (plugin.needsHttp = true ↔ SomeFetches (xs ++ ys)) ∧
      (plugin.config.isSome = true → config.truthy = true) := by
  obtain ⟨needsHttp, hhttp, h⟩ := bind_eq_ok.mp h
  obtain ⟨sections, hsections, h⟩ := bind_eq_ok.mp h
  obtain ⟨xs', hx', h⟩ := bind_eq_ok.mp h
  cases hx.symm.trans hx'
  obtain ⟨commandRows, hcommands, h⟩ := bind_eq_ok.mp h
  obtain ⟨ys', hy', h⟩ := bind_eq_ok.mp h
  cases hy.symm.trans hy'
  obtain ⟨actionRows, hactions, h⟩ := bind_eq_ok.mp h
  cases h
  refine ⟨commandRows, actionRows, mapM_eq_ok_iff.mp hcommands, mapM_eq_ok_iff.mp hactions, rfl,
    eitherFetchesPages_ok hhttp hx hy, fun hsome => ?_⟩
  unfold configSections? at hsections
  split at hsections
  · next htruthy => exact htruthy
  · cases hsections
    cases hsome

theorem Module.ofValues_ok
    (h : Module.ofValues plugin commands actions config = .ok m) (hx : commands.elements = .ok xs)
    (hy : actions.elements = .ok ys) : ∃ commandClasses actionClasses,
      List.Forall₂ (fun c k => componentClass m.classPrefix .command c = .ok k) xs commandClasses ∧
      List.Forall₂ (fun c k => componentClass m.classPrefix .action c = .ok k) ys actionClasses ∧
      m.classes = commandClasses ++ actionClasses ∧ (m.usesHttp = true ↔ SomeFetches (xs ++ ys)) ∧
      m.importsField = config.truthy ∧
      PluginClass.ofValues m.classPrefix commands actions config = .ok m.plugin := by
  obtain ⟨value, -, h⟩ := bind_eq_ok.mp h
  obtain ⟨internalName, -, h⟩ := bind_eq_ok.mp h
  obtain ⟨nameValue, -, h⟩ := bind_eq_ok.mp h
  obtain ⟨name, -, h⟩ := bind_eq_ok.mp h
  obtain ⟨descriptionValue, -, h⟩ := bind_eq_ok.mp h
  obtain ⟨description, -, h⟩ := bind_eq_ok.mp h
  obtain ⟨authorValue, -, h⟩ := bind_eq_ok.mp h
  obtain ⟨author, -, h⟩ := bind_eq_ok.mp h
  obtain ⟨versionValue, -, h⟩ := bind_eq_ok.mp h
  obtain ⟨version, -, h⟩ := bind_eq_ok.mp h
  obtain ⟨http, hhttp, h⟩ := bind_eq_ok.mp h
  obtain ⟨xs', hx', h⟩ := bind_eq_ok.mp h
  cases hx.symm.trans hx'
  obtain ⟨commandClasses, hcommands, h⟩ := bind_eq_ok.mp h
  obtain ⟨ys', hy', h⟩ := bind_eq_ok.mp h
  cases hy.symm.trans hy'
  obtain ⟨actionClasses, hactions, h⟩ := bind_eq_ok.mp h
  obtain ⟨pluginClass, hplugin, h⟩ := bind_eq_ok.mp h
  cases h
  exact ⟨commandClasses, actionClasses, mapM_eq_ok_iff.mp hcommands, mapM_eq_ok_iff.mp hactions, rfl,
    eitherFetchesPages_ok hhttp hx hy, rfl, hplugin⟩

/-! ### The whole plugin -/

/-- The components that a manifest lists and the lines of a module fit together. -/
structure Consistent (commands actions : List Value) (config : Value) (entries : List Value) (lines : List Line) :
    Prop where
  /-- Entries, classes and rows are those of the commands and then those of the actions, and the classes stand before
  the rows, which are all that is returned. -/
  aligned : ∃ commandEntries actionEntries commandBlocks actionBlocks commandRows actionRows before between,
    entries = commandEntries ++ actionEntries ∧
    lines = before ++ (commandBlocks ++ actionBlocks).flatten ++ between ++ .code 2 "return [" ::
      ((commandRows ++ actionRows) ++ [.code 2 "]"]) ∧
    Aligned .command commands commandEntries commandBlocks commandRows ∧
    Aligned .action actions actionEntries actionBlocks actionRows
  httpImported : Module.httpImport <:+: lines ↔ SomeFetches (commands ++ actions)
  httpDeclared : Module.dependencyLine true ∈ lines ↔ SomeFetches (commands ++ actions)
  httpNotDeclared : Module.dependencyLine false ∈ lines ↔ ¬ SomeFetches (commands ++ actions)
  httpBefore : ∀ pre l post, lines = pre ++ l :: post → l.asksHttp = true → Module.httpImport <:+: pre
  configImported : Module.configImport ∈ lines ↔ config.truthy = true
  configBefore : ∀ pre l post, lines = pre ++ l :: post → l.isField = true →
    config.truthy = true ∧ Module.configImport ∈ pre

/-- A module has its classes, and behind them the rows as all that is returned. -/
theorem Module.lines_eq (m : Module) : ∃ between, m.lines = m.front ++ (m.classes.map classBlock).flatten ++ between ++
    .code 2 "return [" :: (m.plugin.rows.map ComponentRow.line ++ [.code 2 "]"]) := by
  have hblocks : m.classes.flatMap (fun c => c.lines ++ [.blank]) = (m.classes.map classBlock).flatten :=
    flatMap_def
  have hregroup : ∀ (xs ys rows closing : List Line) (l : Line),
      xs ++ (ys ++ [l]) ++ rows ++ closing = xs ++ ys ++ l :: (rows ++ closing) := by
    intro xs ys rows closing l
    simp only [append_assoc, cons_append, nil_append]
  have hplugin : ∃ between, m.pluginClass = between ++
      .code 2 "return [" :: (m.plugin.rows.map ComponentRow.line ++ [.code 2 "]"]) :=
    ⟨_, hregroup _ [.blank, .code 1 "def get_plugin_components(self) -> List[Tuple[ComponentInfo, Type]]:",
      .code 2 "\"\"\"返回所有组件\"\"\""] _ _ _⟩
  obtain ⟨between, hbetween⟩ := hplugin
  refine ⟨between, ?_⟩
  rw [Module.lines, hblocks, hbetween, Module.front, append_assoc _ between]

/-- The methods of the classes ask for the HTTP library only if a component fetches pages. -/
theorem someFetches_of_asks
    (h : List.Forall₂ (fun c k => componentClass start role c = .ok k) components classes) {k : ComponentClass}
    (hk : k ∈ classes) : (∀ l ∈ k.body, 2 ≤ l.level ∧ l.isField = false) ∧
      ((∃ l ∈ k.body, l.asksHttp = true) → SomeFetches components) := by
  induction h with
  | nil => cases hk
  | @cons c k' components classes hclass _ ih =>
    rcases mem_cons.mp hk with rfl | hk
    · have hbody := (componentClass_ok hclass).body
      refine ⟨fun l hl => ⟨hbody.level l hl, hbody.isField l hl⟩, fun hasks => ?_⟩
      exact ⟨c, mem_cons_self, hbody.asksHttp.mp hasks⟩
    · obtain ⟨hplain, hfetches⟩ := ih hk
      exact ⟨hplain, fun hasks => (hfetches hasks).mono (subset_cons_self c components)⟩

theorem consistent_of_ok
    (hv : manifest plugin commands actions = .ok v) (hm : Module.ofValues plugin commands actions config = .ok m) :
    ∃ xs ys entries, commands.elements = .ok xs ∧ actions.elements = .ok ys ∧ Lists v entries ∧
      Consistent xs ys config entries m.lines := by
  obtain ⟨xs, ys, commandEntries, actionEntries, hx, hy, hcommandEntries, hactionEntries, hlists⟩ := manifest_ok hv
  obtain ⟨commandClasses, actionClasses, hcommandClasses, hactionClasses, hclasses, huses, hfield, hplugin⟩ :=
    Module.ofValues_ok hm hx hy
  obtain ⟨commandRows, actionRows, hcommandRows, hactionRows, hrows, hneeds, hconfig⟩ := pluginClass_ok hplugin hx hy
  have hclass : ∀ k ∈ m.classes, (∀ l ∈ k.body, 2 ≤ l.level ∧ l.isField = false) ∧
      ((∃ l ∈ k.body, l.asksHttp = true) → SomeFetches (xs ++ ys)) := by
    intro k hk
    rw [hclasses] at hk
    rcases mem_append.mp hk with hk | hk
    · obtain ⟨hplain, hfetches⟩ := someFetches_of_asks hcommandClasses hk
      exact ⟨hplain, fun hasks => (hfetches hasks).mono (subset_append_left xs ys)⟩
    · obtain ⟨hplain, hfetches⟩ := someFetches_of_asks hactionClasses hk
      exact ⟨hplain, fun hasks => (hfetches hasks).mono (subset_append_right xs ys)⟩
  have hplain : m.Plain := fun k hk => (hclass k hk).1
  refine ⟨xs, ys, commandEntries ++ actionEntries, hx, hy, hlists, ?_⟩
  constructor
  · obtain ⟨between, hlines⟩ := m.lines_eq
    rw [hclasses, hrows, map_append, map_append] at hlines
    exact ⟨_, _, _, _, _, _, _, between, rfl, hlines, aligned_of_ok hcommandEntries hcommandClasses hcommandRows,
      aligned_of_ok hactionEntries hactionClasses hactionRows⟩
  · rw [Module.httpImport_infix_lines hplain, huses]
  · rw [Module.dependencyLine_mem_lines hplain, hneeds]
  · rw [Module.dependencyLine_mem_lines hplain, ← hneeds, Bool.not_eq_true]
  · intro pre l post h hl
    refine Module.httpImport_before (fun k hk l hl hasks => ?_) h hl
    exact huses.mpr ((hclass k hk).2 ⟨l, hl, hasks⟩)
  · rw [Module.configImport_mem_lines hplain, hfield]
  · intro pre l post h hl
    rw [← hfield]
    refine Module.configImport_before hplain (fun hsome => ?_) h hl
    rw [hfield]
    exact hconfig hsome

/-- A directory holds a manifest and a module of plugin data, and the components of the one and the lines of the other
fit together. -/
def HoldsPlugin (w : Surroundings) (t : Tree) (directory : Path) (data : Value) : Prop :=
  ∃ p commands actions v text entries lines, Parts.ofValue data = .ok p ∧ p.commands.elements = .ok commands ∧
    p.actions.elements = .ok actions ∧ Json.write Json.pretty v = .ok text ∧ Lists v entries ∧
    Holds w t (directory.child manifestName) text ∧
    Holds w t (directory.child moduleName) (Text.join "\n" (lines.map Line.render)) ∧
    Consistent commands actions p.config entries lines

/-- Plugin data with a command that fetches a page, an action and a configuration. -/
def weatherData : Value := .record [
  ("plugin", .record [("internal_name", str "sky"), ("name", str "Sky"), ("description", str ""),
    ("author", str "me"), ("version", str "1")]),
  ("commands", .list [.record [("internal_name", str "now"), ("name", str "now"), ("match", str "w"),
    ("pattern", str "w"), ("type", str "http_get"), ("http_get", str "u")]]),
  ("actions", .list [.record [("internal_name", str "hi"), ("name", str "hi"), ("when", str "x"),
    ("reply", str "y")]]),
  ("config", .record [("a", .record [("k", str "")])])]

def emptyMachine : Surroundings := ⟨[], ⟨"", []⟩, false, true, 2024, true, fun _ => none⟩

theorem weatherData_completes :
    ∃ s', Completes (buildInto ⟨"/", ["out"]⟩ weatherData) emptyMachine (.start .empty []) () s' := by
  have hok : (((buildInto ⟨"/", ["out"]⟩ weatherData).run emptyMachine).run.run (.start .empty [])).1.isOk = true := by
    decide +kernel
  unfold Completes
  generalize ((buildInto ⟨"/", ["out"]⟩ weatherData).run emptyMachine).run.run (.start .empty []) = r at hok
  obtain ⟨result, s'⟩ := r
  cases result with
  | error e => cases hok
  | ok u => exact ⟨s', rfl⟩

end PluginKit.Package
