import PluginKit.Package.Module
import PluginKit.Proofs.Package.Classes

/-!
# The lines of a module

Some lines of a module are there for others: the one that says whether the HTTP library is there, the import of the
type of configuration fields, the declaration of dependencies. Each is in the module exactly if the module says so
(`availableLine_mem_lines`, `configImport_mem_lines`, `dependencyLine_mem_lines`), and it stands before all lines that
need it (`httpImport_before`, `configImport_before`).
-/

namespace PluginKit.Package.Module

open List

def availableLine : Line := .assign 1 "_HAS_AIOHTTP" (.plain "True")

/-- The lines that are there for others. -/
def declarations : List Line := [availableLine, configImport, dependencyLine true, dependencyLine false]

/-- The methods of all classes are indented and declare no fields. -/
def Plain (m : Module) : Prop := ∀ c ∈ m.classes, ∀ l ∈ c.body, 2 ≤ l.level ∧ l.isField = false

theorem mem_declarations {l : Line} :
    l ∈ declarations ↔ l = availableLine ∨ l = configImport ∨ ∃ needsHttp, l = dependencyLine needsHttp := by
  simp only [declarations, mem_cons, not_mem_nil, or_false, Bool.exists_bool,
    or_comm (a := l = dependencyLine true)]

theorem availableLine_mem : availableLine ∈ declarations := mem_cons_self

theorem configImport_mem : configImport ∈ declarations := mem_cons_of_mem _ mem_cons_self

theorem level_declarations (l : Line) (hl : l ∈ declarations) : l.level = 1 := by
  rcases mem_declarations.mp hl with rfl | rfl | ⟨needsHttp, rfl⟩
  · rfl
  · rfl
  · rfl

variable {m : Module} {l : Line}

/-! ### The parts of the module -/

theorem level_heading : ∀ l ∈ m.heading, l.level = 0 := by
  simp only [heading, forall_mem_cons]
  exact ⟨rfl, rfl, rfl, rfl, rfl, rfl, rfl, rfl, rfl, rfl, rfl, rfl, nofun⟩

theorem not_mem_heading (hl : l ∈ declarations) : l ∉ m.heading := by
  intro h
  have h0 := level_heading l h
  have h1 := level_declarations l hl
  omega

theorem mem_imports (hl : l ∈ declarations) : l ∈ m.imports ↔ l = configImport ∧ m.importsField = true := by
  unfold imports
  rcases mem_declarations.mp hl with rfl | rfl | ⟨needsHttp, rfl⟩
  · cases m.importsField <;> simp [availableLine, configImport, Line.assign, Line.code, Line.blank, Text.ofString]
  · cases m.importsField <;> simp [configImport, Line.assign, Line.code, Line.blank, Text.ofString]
  · cases m.importsField <;> simp [dependencyLine, configImport, Line.assign, Line.code, Line.blank, Text.ofString]

theorem mem_httpImport (hl : l ∈ declarations) : l ∈ httpImport ↔ l = availableLine := by
  rcases mem_declarations.mp hl with rfl | rfl | ⟨needsHttp, rfl⟩
  · decide
  · decide
  · cases needsHttp <;> decide

theorem not_mem_attributeLines (hl : l ∈ declarations) (c : ComponentClass) : l ∉ c.attributeLines := by
  unfold ComponentClass.attributeLines
  rcases mem_declarations.mp hl with rfl | rfl | ⟨needsHttp, rfl⟩
  · cases c.trigger <;> simp [availableLine, Line.assign, Line.code, Text.ofString]
  · cases c.trigger <;> simp [configImport, Line.assign, Line.code, Text.ofString]
  · cases c.trigger <;> simp [dependencyLine, Line.assign, Line.code, Text.ofString]

theorem not_mem_methodHead (hl : l ∈ declarations) (c : ComponentClass) : l ≠ c.methodHead := by
  unfold ComponentClass.methodHead
  rcases mem_declarations.mp hl with rfl | rfl | ⟨needsHttp, rfl⟩
  · cases c.role <;> simp [availableLine, Line.assign, Line.code]
  · cases c.role <;> simp [configImport, Line.code, Text.ofString]
  · cases c.role <;> simp [dependencyLine, Line.assign, Line.code]

theorem not_mem_classes (hm : m.Plain) (hl : l ∈ declarations) :
    l ∉ m.classes.flatMap (fun c => c.lines ++ [.blank]) := by
  intro h
  have h1 := level_declarations l hl
  obtain ⟨c, hc, h⟩ := mem_flatMap.mp h
  simp only [ComponentClass.lines, mem_append, mem_cons, not_mem_nil, or_false] at h
  rcases h with ((hattribute | rfl | hhead) | hbody) | rfl
  · exact not_mem_attributeLines hl c hattribute
  · cases h1
  · exact not_mem_methodHead hl c hhead
  · have := (hm c hc l hbody).1
    omega
  · cases h1

theorem not_mem_schemaLines (hl : l ∈ declarations) (config : Option (List ConfigSection)) : l ∉ schemaLines config := by
  have hlevel := level_declarations l hl
  have hsection : ∀ s : ConfigSection, l ∉ sectionLines s := by
    intro s h
    simp only [sectionLines, mem_append, mem_cons, not_mem_nil, or_false, mem_map] at h
    rcases h with (rfl | ⟨f, -, rfl⟩) | rfl
    · cases hlevel
    · cases hlevel
    · cases hlevel
  have hopen : ∀ text, l ≠ .assign 1 "config_schema: dict" (.plain text) := by
    intro text
    rcases mem_declarations.mp hl with rfl | rfl | ⟨needsHttp, rfl⟩
    · simp [availableLine, Line.assign, Text.ofString]
    · simp [configImport, Line.assign, Line.code]
    · simp [dependencyLine, Line.assign, Text.ofString]
  have hclose : l ≠ .code 1 "\x7d" := by
    rcases mem_declarations.mp hl with rfl | rfl | ⟨needsHttp, rfl⟩
    · decide
    · decide
    · cases needsHttp <;> decide
  intro h
  cases config with
  | none => exact hopen _ (mem_singleton.mp h)
  | some sections =>
    simp only [schemaLines, mem_append, mem_cons, not_mem_nil, or_false, mem_flatMap] at h
    rcases h with (h | ⟨s, -, h⟩) | h
    · exact hopen _ h
    · exact hsection s h
    · exact hclose h

theorem mem_pluginClass (hl : l ∈ declarations) : l ∈ m.pluginClass ↔ l = dependencyLine m.plugin.needsHttp := by
  have hlevel := level_declarations l hl
  have hrows : l ∉ m.plugin.rows.map ComponentRow.line := by
    intro h
    obtain ⟨row, -, rfl⟩ := mem_map.mp h
    cases hlevel
  have hschema := not_mem_schemaLines hl m.plugin.config
  unfold pluginClass
  simp only [mem_append, hschema, hrows, or_false]
  rcases mem_declarations.mp hl with rfl | rfl | ⟨needsHttp, rfl⟩
  · simp [availableLine, dependencyLine, Line.assign, Line.code, Line.blank, Text.ofString]
  · simp [configImport, dependencyLine, Line.assign, Line.code, Line.blank, Text.ofString]
  · simp [dependencyLine, Line.assign, Line.code, Line.blank, Text.ofString]

/-! ### What is in the module -/

theorem mem_lines_iff (hm : m.Plain) (hl : l ∈ declarations) : l ∈ m.lines ↔
    l = configImport ∧ m.importsField = true ∨ l = availableLine ∧ m.usesHttp = true ∨
      l = dependencyLine m.plugin.needsHttp := by
  have hhttp : l ∈ (if m.usesHttp then httpImport else []) ↔ l = availableLine ∧ m.usesHttp = true := by
    split
    · next h => rw [mem_httpImport hl, and_iff_left h]
    · next h => simp [h]
  simp only [lines, mem_append, not_mem_heading hl, mem_imports hl, hhttp, not_mem_classes hm hl,
    mem_pluginClass hl, false_or, or_false, or_assoc]

theorem availableLine_mem_lines (hm : m.Plain) : availableLine ∈ m.lines ↔ m.usesHttp = true := by
  have hconfig : availableLine ≠ configImport := by decide
  have hdependency : availableLine ≠ dependencyLine m.plugin.needsHttp := by
    cases m.plugin.needsHttp <;> decide
  rw [mem_lines_iff hm availableLine_mem]
  simp [hconfig, hdependency]

theorem configImport_mem_lines (hm : m.Plain) : configImport ∈ m.lines ↔ m.importsField = true := by
  have havailable : configImport ≠ availableLine := by decide
  have hdependency : configImport ≠ dependencyLine m.plugin.needsHttp := by
    cases m.plugin.needsHttp <;> decide
  rw [mem_lines_iff hm configImport_mem]
  simp [havailable, hdependency]

theorem dependencyLine_mem_lines (hm : m.Plain) (needsHttp : Bool) :
    dependencyLine needsHttp ∈ m.lines ↔ m.plugin.needsHttp = needsHttp := by
  have hmem : dependencyLine needsHttp ∈ declarations := by cases needsHttp <;> decide
  have hconfig : dependencyLine needsHttp ≠ configImport := by cases needsHttp <;> decide
  have havailable : dependencyLine needsHttp ≠ availableLine := by cases needsHttp <;> decide
  have hinj : ∀ a b : Bool, dependencyLine a = dependencyLine b ↔ b = a := by decide
  rw [mem_lines_iff hm hmem]
  simp [hconfig, havailable, hinj]

/-- The import of the HTTP library is in the module exactly if the module uses it. -/
theorem httpImport_infix_lines (hm : m.Plain) : httpImport <:+: m.lines ↔ m.usesHttp = true := by
  constructor
  · intro h
    exact (availableLine_mem_lines hm).mp (h.subset ((mem_httpImport availableLine_mem).mpr rfl))
  · intro h
    refine ⟨m.heading ++ m.imports, m.classes.flatMap (fun c => c.lines ++ [.blank]) ++ m.pluginClass, ?_⟩
    simp only [lines, h, if_true, append_assoc]

/-! ### What stands before what -/

theorem isPrefix_of_not_mem {α : Type} {xs ys pre post : List α} {a : α} (h : xs ++ ys = pre ++ a :: post)
    (ha : a ∉ xs) : xs <+: pre := by
  rcases append_eq_append_iff.mp h with ⟨zs, rfl, -⟩ | ⟨zs, rfl, hzs⟩
  · exact prefix_append xs zs
  · cases zs with
    | nil => rw [append_nil]
    | cons z zs =>
      cases hzs
      exact absurd (mem_append_right pre mem_cons_self) ha

theorem quiet_heading : ∀ l ∈ m.heading, l.Quiet := by
  simp only [heading, forall_mem_cons]
  exact ⟨quiet_code _, quiet_code _, quiet_code _, quiet_code _, quiet_code _, quiet_code _, quiet_code _,
    quiet_code _, quiet_code _, quiet_code _, quiet_code _, quiet_code _, nofun⟩

theorem quiet_imports : ∀ l ∈ m.imports, l.Quiet := by
  have hconfig : ∀ l ∈ (if m.importsField then [configImport] else []), l.Quiet := by
    split
    · exact forall_mem_singleton.mpr (quiet_code _)
    · exact nofun
  unfold imports
  refine forall_mem_append.mpr ⟨forall_mem_append.mpr ⟨?_, hconfig⟩, ?_⟩
  · simp only [forall_mem_cons]
    exact ⟨quiet_code _, quiet_code _, quiet_code _, quiet_code _, quiet_code _, quiet_code _, quiet_code _,
      quiet_code _, nofun⟩
  · simp only [forall_mem_cons]
    exact ⟨quiet_code _, quiet_code _, quiet_code _, quiet_assign _ _, quiet_code _, nofun⟩

theorem quiet_httpImport : ∀ l ∈ httpImport, l.Quiet := by
  simp only [httpImport, forall_mem_cons]
  exact ⟨quiet_code _, quiet_code _, quiet_code _, quiet_assign _ _, quiet_code _, quiet_assign _ _, quiet_code _,
    nofun⟩

theorem quiet_attributeLines (c : ComponentClass) : ∀ l ∈ c.attributeLines, l.Quiet := by
  unfold ComponentClass.attributeLines
  cases c.trigger with
  | command matchText pattern =>
    simp only [forall_mem_cons]
    exact ⟨quiet_code _, quiet_code _, quiet_code _, quiet_assign _ _, quiet_assign _ _, quiet_assign _ _, nofun⟩
  | action parameters triggers types =>
    simp only [forall_mem_cons]
    exact ⟨quiet_code _, quiet_code _, quiet_code _, quiet_assign _ _, quiet_assign _ _, quiet_assign _ _,
      quiet_assign _ _, quiet_assign _ _, quiet_assign _ _, nofun⟩

theorem quiet_methodHead (c : ComponentClass) : c.methodHead.Quiet := by
  unfold ComponentClass.methodHead
  cases c.role with
  | command => exact quiet_code _
  | action => exact quiet_code _

theorem mem_body_of_not_quiet {c : ComponentClass} (h : l ∈ c.lines ++ [.blank]) (hl : ¬ l.Quiet) : l ∈ c.body := by
  simp only [ComponentClass.lines, mem_append, mem_cons, not_mem_nil, or_false] at h
  rcases h with ((hattribute | rfl | rfl) | hbody) | rfl
  · exact absurd (quiet_attributeLines c l hattribute) hl
  · exact absurd (quiet_code _) hl
  · exact absurd (quiet_methodHead c) hl
  · exact hbody
  · exact absurd (quiet_code _) hl

theorem schemaLines_field (config : Option (List ConfigSection)) :
    ∀ l ∈ schemaLines config, l.asksHttp = false ∧ (l.isField = true → config.isSome = true) := by
  cases config with
  | none => exact forall_mem_singleton.mpr ⟨rfl, nofun⟩
  | some sections =>
    intro l h
    refine ⟨?_, fun _ => rfl⟩
    simp only [schemaLines, sectionLines, mem_append, mem_cons, not_mem_nil, or_false,
      mem_flatMap, mem_map] at h
    rcases h with (rfl | ⟨s, -, (rfl | ⟨f, -, rfl⟩) | rfl⟩) | rfl <;> rfl

/-- The class of the plugin does not ask for the HTTP library, and declares fields only if there is a
configuration. -/
theorem pluginClass_field :
    ∀ l ∈ m.pluginClass, l.asksHttp = false ∧ (l.isField = true → m.plugin.config.isSome = true) := by
  have hquiet : ∀ {l : Line}, l.Quiet → l.asksHttp = false ∧ (l.isField = true → m.plugin.config.isSome = true) := by
    intro l hl
    refine ⟨hl.asksHttp, fun h => ?_⟩
    rw [hl.isField] at h
    cases h
  unfold pluginClass
  simp only [forall_mem_append, forall_mem_cons]
  refine ⟨⟨⟨⟨?_, schemaLines_field _⟩, ?_⟩, ?_⟩, ?_⟩
  · exact ⟨hquiet (quiet_code _), hquiet (quiet_code _), hquiet (quiet_code _), hquiet (quiet_code _),
      hquiet (quiet_code _), hquiet (quiet_assign _ _), hquiet (quiet_assign _ _), hquiet (quiet_assign _ _),
      hquiet (quiet_assign _ _), hquiet (quiet_assign _ _), nofun⟩
  · exact ⟨hquiet (quiet_code _), hquiet (quiet_code _), hquiet (quiet_code _), hquiet (quiet_code _), nofun⟩
  · intro l hl
    obtain ⟨row, -, rfl⟩ := mem_map.mp hl
    exact hquiet (quiet_code _)
  · exact ⟨hquiet (quiet_code _), nofun⟩

def front (m : Module) : List Line := m.heading ++ m.imports ++ (if m.usesHttp then httpImport else [])

theorem quiet_front : ∀ l ∈ m.front, l.Quiet := by
  refine forall_mem_append.mpr ⟨forall_mem_append.mpr ⟨quiet_heading, quiet_imports⟩, ?_⟩
  split
  · exact quiet_httpImport
  · exact nofun

/-- A line that is not quiet stands in a method or in the class of the plugin. -/
theorem mem_of_not_quiet (h : l ∈ m.lines) (hl : ¬ l.Quiet) : (∃ c ∈ m.classes, l ∈ c.body) ∨ l ∈ m.pluginClass := by
  rw [lines, mem_append, mem_append] at h
  rcases h with (h | h) | h
  · exact absurd (quiet_front l h) hl
  · obtain ⟨c, hc, h⟩ := mem_flatMap.mp h
    exact .inl ⟨c, hc, mem_body_of_not_quiet h hl⟩
  · exact .inr h

theorem front_isPrefix {pre post : List Line} (h : m.lines = pre ++ l :: post) (hl : ¬ l.Quiet) : m.front <+: pre := by
  rw [lines, append_assoc (m.heading ++ m.imports ++ _)] at h
  exact isPrefix_of_not_mem h fun hmem => hl (quiet_front l hmem)

/-- **The HTTP library is imported before it is asked for.** -/
theorem httpImport_before (hasks : ∀ c ∈ m.classes, ∀ l ∈ c.body, l.asksHttp = true → m.usesHttp = true)
    {pre post : List Line} (h : m.lines = pre ++ l :: post) (hl : l.asksHttp = true) : httpImport <:+: pre := by
  have hloud : ¬ l.Quiet := by
    intro hq
    rw [hq.asksHttp] at hl
    cases hl
  have hmem : l ∈ m.lines := by
    rw [h]
    exact mem_append_right pre mem_cons_self
  have huses : m.usesHttp = true := by
    rcases mem_of_not_quiet hmem hloud with ⟨c, hc, hbody⟩ | hplugin
    · exact hasks c hc l hbody hl
    · rw [(pluginClass_field l hplugin).1] at hl
      cases hl
  have hfront : httpImport <:+ m.front := by
    rw [front, if_pos huses]
    exact suffix_append _ _
  exact hfront.isInfix.trans (front_isPrefix h hloud).isInfix

/-- **The type of configuration fields is imported before it is used.** -/
theorem configImport_before (hm : m.Plain) (hconfig : m.plugin.config.isSome = true → m.importsField = true)
    {pre post : List Line} (h : m.lines = pre ++ l :: post) (hl : l.isField = true) :
    m.importsField = true ∧ configImport ∈ pre := by
  have hloud : ¬ l.Quiet := by
    intro hq
    rw [hq.isField] at hl
    cases hl
  have hmem : l ∈ m.lines := by
    rw [h]
    exact mem_append_right pre mem_cons_self
  have huses : m.importsField = true := by
    rcases mem_of_not_quiet hmem hloud with ⟨c, hc, hbody⟩ | hplugin
    · rw [(hm c hc l hbody).2] at hl
      cases hl
    · exact hconfig ((pluginClass_field l hplugin).2 hl)
  have himport : configImport ∈ m.imports := (mem_imports configImport_mem).mpr ⟨rfl, huses⟩
  refine ⟨huses, (front_isPrefix h hloud).subset ?_⟩
  exact mem_append_left _ (mem_append_right _ himport)

end PluginKit.Package.Module
