import PluginKit.Proofs.Package.Consistent
import PluginKit.Proofs.Package.Found
import PluginKit.Proofs.Script.Spelling
import PluginKit.Proofs.Text.Search

/-!
# The names of the classes

A module begins one class for each component and one for the plugin. If two of them have the same name, the later one
takes the place of the earlier one. The classes of commands, those of actions and that of the plugin never have a name in
common, so all names are different exactly if neither two commands nor two actions are spelled alike
(`classNames_nodup_iff`); that their names are different is not enough.
-/

namespace PluginKit.Package

open List
open Value (str)
open Script (Definition spelling)

variable {source : Text} {v : Value} {d : Definition} {p : Parts}

/-! ### Lines that begin a class -/

def Line.className? (l : Line) : Option Text :=
  match l.statement with
  | .code text =>
    if l.level = 0 then
      (Text.after "class " text).map fun rest => ((rest.reverse.dropWhile (· != .scalar '(')).drop 1).reverse
    else none
  | _ => none

/-- The names of the classes that a module begins. Its heading is a comment. -/
def Module.classNames (m : Module) : List Text := (m.lines.drop m.heading.length).filterMap Line.className?

theorem className?_header (name base : Text) (hbase : .scalar '(' ∉ base) :
    (Line.code 0 ("class " ++ name ++ .scalar '(' :: base)).className? = some name := by
  have hdrop : (name ++ .scalar '(' :: base).reverse.dropWhile (· != .scalar '(') = .scalar '(' :: name.reverse := by
    rw [reverse_append, reverse_cons, append_assoc]
    refine Text.dropWhile_run (fun c hc => ?_) (Text.avoids_cons (by simp))
    rw [bne_iff_ne]
    rintro rfl
    exact hbase (mem_reverse.mp hc)
  rw [append_assoc, Line.code, Line.className?]
  dsimp only
  rw [if_pos rfl, Text.after_append, Option.map_some, hdrop, drop_one, tail_cons, reverse_reverse]

theorem className?_of_level {l : Line} (h : 0 < l.level) : l.className? = none := by
  unfold Line.className?
  split
  · rw [if_neg (Nat.pos_iff_ne_zero.mp h)]
  · rfl

theorem className?_comment (s : Text) : (Line.code 0 ("# ----" ++ s)).className? = none := rfl

/-- A comment and a line that begins a class, before lines that begin none. -/
theorem classNames_headed {comment header : Line} {rest : List Line} {name : Text} (hcomment : comment.className? = none)
    (hheader : header.className? = some name) (hrest : rest.filterMap Line.className? = []) :
    (comment :: header :: rest).filterMap Line.className? = [name] := by
  rw [filterMap_cons_none hcomment, filterMap_cons_some hheader, hrest]

/-! ### The classes of a module -/

theorem classNames_methodHead (c : ComponentClass) : [.blank, c.methodHead].filterMap Line.className? = [] := by
  unfold ComponentClass.methodHead
  cases c.role <;> rfl

theorem classNames_block {c : ComponentClass} (hbody : ∀ l ∈ c.body, 2 ≤ l.level) :
    (classBlock c).filterMap Line.className? = [c.className] := by
  -- A method is indented, so no class begins in it.
  have hmethod : c.body.filterMap Line.className? = [] :=
    filterMap_eq_nil_iff.mpr fun l hl => className?_of_level (Nat.zero_lt_of_lt (hbody l hl))
  have hattributes : c.attributeLines.filterMap Line.className? = [c.className] := by
    have hcommand := className?_header c.className "BaseCommand):" (by decide)
    have haction := className?_header c.className "BaseAction):" (by decide)
    unfold ComponentClass.attributeLines
    cases c.trigger with
    | command matchText pattern =>
      exact classNames_headed (className?_comment _) hcommand rfl
    | action parameters triggers types =>
      exact classNames_headed (className?_comment _) haction rfl
  rw [classBlock, ComponentClass.lines, filterMap_append, filterMap_append, filterMap_append, hmethod,
    hattributes, classNames_methodHead]
  rfl

theorem classNames_imports (m : Module) : m.imports.filterMap Line.className? = [] := by
  unfold Module.imports
  cases m.importsField <;> rfl

theorem classNames_schemaLines (config : Option (List ConfigSection)) :
    (Module.schemaLines config).filterMap Line.className? = [] := by
  refine filterMap_eq_nil_iff.mpr fun l hl => ?_
  cases config with
  | none =>
    cases mem_singleton.mp hl
    rfl
  | some sections =>
    simp only [Module.schemaLines, Module.sectionLines, mem_append, mem_cons, not_mem_nil, or_false,
      mem_flatMap, mem_map] at hl
    rcases hl with (rfl | ⟨s, -, (rfl | ⟨f, -, rfl⟩) | rfl⟩) | rfl <;> exact className?_of_level (Nat.succ_pos _)

theorem classNames_pluginClass (m : Module) :
    m.pluginClass.filterMap Line.className? = [m.classPrefix ++ "Plugin"] := by
  have hhead : (Line.code 0 ("class " ++ m.classPrefix ++ "Plugin(BasePlugin):")).className?
      = some (m.classPrefix ++ "Plugin") := by
    have hcut : ("class " ++ m.classPrefix ++ "Plugin(BasePlugin):" : Text)
        = ("class " : Text) ++ (m.classPrefix ++ "Plugin") ++ .scalar '(' :: ("BasePlugin):" : Text) := by
      rw [← append_assoc, append_assoc _ ("Plugin" : Text)]
      rfl
    rw [hcut]
    exact className?_header _ _ (by decide)
  have hrows : (m.plugin.rows.map ComponentRow.line).filterMap Line.className? = [] := by
    refine filterMap_eq_nil_iff.mpr fun l hl => ?_
    obtain ⟨row, -, rfl⟩ := mem_map.mp hl
    exact className?_of_level (Nat.succ_pos _)
  unfold Module.pluginClass
  rw [filterMap_append, filterMap_append, filterMap_append, filterMap_append, hrows,
    classNames_schemaLines, filterMap_cons_none rfl, classNames_headed rfl hhead rfl]
  rfl

/-- A module begins the classes of its components, and then that of the plugin. -/
theorem classNames_eq {m : Module} (h : ∀ c ∈ m.classes, ∀ l ∈ c.body, 2 ≤ l.level) :
    m.classNames = m.classes.map (·.className) ++ [m.classPrefix ++ "Plugin"] := by
  have hhttp : (if m.usesHttp then Module.httpImport else []).filterMap Line.className? = [] := by
    cases m.usesHttp <;> rfl
  have hblocks : (m.classes.flatMap classBlock).filterMap Line.className? = m.classes.map (·.className) := by
    rw [filterMap_flatMap, flatMap_congr fun c hc => classNames_block (h c hc)]
    exact map_eq_flatMap.symm
  have hlines : m.lines.drop m.heading.length
      = m.imports ++ (if m.usesHttp then Module.httpImport else []) ++ m.classes.flatMap classBlock ++ m.pluginClass := by
    rw [Module.lines, append_assoc, append_assoc, append_assoc, drop_left, append_assoc,
      append_assoc]
    rfl
  rw [Module.classNames, hlines, filterMap_append, filterMap_append, filterMap_append, hhttp, hblocks,
    classNames_imports, classNames_pluginClass]
  rfl

/-! ### Names that are spelled alike -/

/-- No two of the names are spelled alike. -/
def SpelledApart (names : List Text) : Prop := (names.map spelling).Nodup

instance (names : List Text) : Decidable (SpelledApart names) := inferInstanceAs (Decidable (List.Nodup _))

/-- What stands between the beginning of a class name and the name of its component. -/
def tag : Role → Text
  | .command => "Cmd"
  | .action => "Act"

theorem componentClassName_safeName (start : Text) (role : Role) (name : Text) :
    componentClassName start role (Script.safeName name) = start ++ (tag role ++ spelling name) := by
  rw [← Script.className_safeName, ← append_assoc]
  cases role with
  | command => rfl
  | action => rfl

theorem map_className {α : Type} {toValue : α → Value} {name : α → Text} {start : Text} {role : Role} {ds : List α}
    {classes : List ComponentClass}
    (hname : ∀ d ∈ ds, (toValue d).item "internal_name" = .ok (str (Script.safeName (name d))))
    (h : List.Forall₂ (fun c k => componentClass start role c = .ok k) (ds.map toValue) classes) :
    classes.map (·.className) = (ds.map name).map fun n => start ++ (tag role ++ spelling n) := by
  rw [forall₂_map_left_iff] at h
  induction h with
  | nil => rfl
  | @cons d c ds classes hclass _ ih =>
    obtain ⟨hd, hds⟩ := forall_mem_cons.mp hname
    have hdescribes := componentClass_ok hclass
    have hidentifier : c.componentName = Script.safeName (name d) := by
      rw [hdescribes.name, Except.ok.injEq, Value.str.injEq] at hd
      exact hd
    rw [map_cons, map_cons, map_cons, ih hds, hdescribes.className, hidentifier,
      componentClassName_safeName]

theorem nodup_map_className (start : Text) (role : Role) (names : List Text) :
    (names.map fun n => start ++ (tag role ++ spelling n)).Nodup ↔ SpelledApart names := by
  have hmap : (names.map fun n => start ++ (tag role ++ spelling n))
      = (names.map spelling).map fun s => start ++ (tag role ++ s) := by
    rw [map_map]
    rfl
  rw [hmap, SpelledApart]
  refine nodup_map_iff fun s t h => ?_
  exact append_cancel_left (append_cancel_left h)

/-- The identifiers of components that are spelled apart are different. -/
theorem SpelledApart.nodup_safeName {names : List Text} (h : SpelledApart names) :
    (names.map Script.safeName).Nodup := by
  have hmap : names.map spelling = (names.map Script.safeName).map Script.className := by
    rw [map_map]
    exact map_congr_left fun n _ => (Script.className_safeName n).symm
  rw [SpelledApart, hmap] at h
  exact h.of_map

/-- Names with different tags behind their common beginning are different. -/
theorem disjoint_tagged (start : Text) (commands actions : List Text) :
    (commands.map fun n => start ++ (tag .command ++ spelling n)).Disjoint
      (actions.map fun n => start ++ (tag .action ++ spelling n)) ∧
    (start ++ "Plugin" ∉ (commands.map fun n => start ++ (tag .command ++ spelling n)) ++
      actions.map fun n => start ++ (tag .action ++ spelling n)) := by
  -- Behind the common beginning the names differ in their first character.
  constructor
  · intro name hcommand haction
    obtain ⟨n, -, rfl⟩ := mem_map.mp hcommand
    obtain ⟨k, -, h⟩ := mem_map.mp haction
    cases append_cancel_left h
  · intro h
    rcases mem_append.mp h with h | h
    · obtain ⟨n, -, h⟩ := mem_map.mp h
      cases append_cancel_left h
    · obtain ⟨n, -, h⟩ := mem_map.mp h
      cases append_cancel_left h

/-- The components of an accepted definition are identified by their names. -/
theorem internalName_eq (h : Definition.ofValue source v = .ok d) :
    (∀ c ∈ d.commands, c.internalName = Script.safeName c.name) ∧
      ∀ a ∈ d.actions, a.internalName = Script.safeName a.name := by
  obtain ⟨entries, plugin, commands, actions, -, -, -, -, hcommands, -, hactions, -⟩ := Script.ofValue_ok h
  constructor
  · intro c hc
    obtain ⟨value, index, hvalue⟩ := Script.exists_item hcommands hc
    obtain ⟨-, -, -, -, -, hname, -⟩ := Script.command_ofValue_ok hvalue
    exact hname
  · intro a ha
    obtain ⟨value, index, hvalue⟩ := Script.exists_item hactions ha
    obtain ⟨-, -, -, -, -, -, -, hname, -⟩ := Script.action_ofValue_ok hvalue
    exact hname

theorem classNames_of_definition {m : Module}
    (hd : Definition.ofValue source v = .ok d) (hp : Parts.ofValue d.toValue = .ok p)
    (hm : Module.ofValues p.plugin p.commands p.actions p.config = .ok m) :
    m.classNames = ((d.commands.map (·.name)).map fun n => m.classPrefix ++ (tag .command ++ spelling n)) ++
      ((d.actions.map (·.name)).map fun n => m.classPrefix ++ (tag .action ++ spelling n)) ++
      [m.classPrefix ++ "Plugin"] := by
  cases (parts_toValue d).symm.trans hp
  obtain ⟨hcommands, hactions⟩ := internalName_eq hd
  obtain ⟨commandClasses, actionClasses, hcommandClasses, hactionClasses, hclasses, -⟩ :=
    Module.ofValues_ok hm rfl rfl
  have hlevel : ∀ c ∈ m.classes, ∀ l ∈ c.body, 2 ≤ l.level := by
    intro c hc l hl
    rw [hclasses] at hc
    rcases mem_append.mp hc with hc | hc
    · exact ((someFetches_of_asks hcommandClasses hc).1 l hl).1
    · exact ((someFetches_of_asks hactionClasses hc).1 l hl).1
  have hcommandNames := map_className (fun c hc => by
    rw [← hcommands c hc]
    exact Value.item_record rfl) hcommandClasses
  have hactionNames := map_className (fun a ha => by
    rw [← hactions a ha]
    exact Value.item_record rfl) hactionClasses
  rw [classNames_eq hlevel, hclasses, map_append, hcommandNames, hactionNames]

/-- The classes of a module have different names exactly if neither two commands nor two actions are spelled alike. -/
theorem classNames_nodup_iff {m : Module}
    (hd : Definition.ofValue source v = .ok d) (hp : Parts.ofValue d.toValue = .ok p)
    (hm : Module.ofValues p.plugin p.commands p.actions p.config = .ok m) :
    m.classNames.Nodup ↔ SpelledApart (d.commands.map (·.name)) ∧ SpelledApart (d.actions.map (·.name)) := by
  obtain ⟨hroles, hplugin⟩ :=
    disjoint_tagged m.classPrefix (d.commands.map (·.name)) (d.actions.map (·.name))
  rw [classNames_of_definition hd hp hm, nodup_append_comm, singleton_append, nodup_cons,
    and_iff_right hplugin, nodup_append', and_iff_left hroles, nodup_map_className, nodup_map_className]

/-- **No component is lost**: all classes of a module have different names, and so have the components of one role,
exactly if neither two commands nor two actions are spelled alike. -/
theorem components_kept_iff {source : Text} {v : Value} {d : Definition} {p : Parts} {m : Module}
    (hd : Definition.ofValue source v = .ok d) (hp : Parts.ofValue d.toValue = .ok p)
    (hm : Module.ofValues p.plugin p.commands p.actions p.config = .ok m) :
    (m.classNames.Nodup ∧ (d.commands.map (·.internalName)).Nodup ∧ (d.actions.map (·.internalName)).Nodup) ↔
      SpelledApart (d.commands.map (·.name)) ∧ SpelledApart (d.actions.map (·.name)) := by
  obtain ⟨hcommands, hactions⟩ := internalName_eq hd
  have hcommandNames : d.commands.map (·.internalName) = (d.commands.map (·.name)).map Script.safeName := by
    rw [List.map_map]
    exact List.map_congr_left hcommands
  have hactionNames : d.actions.map (·.internalName) = (d.actions.map (·.name)).map Script.safeName := by
    rw [List.map_map]
    exact List.map_congr_left hactions
  rw [classNames_nodup_iff hd hp hm, hcommandNames, hactionNames]
  constructor
  · intro h
    exact h.1
  · intro h
    exact ⟨h, h.1.nodup_safeName, h.2.nodup_safeName⟩

def scriptOf (names : List Text) : Value :=
  .record [("plugin", .record [("name", str "p")]), ("commands", .list (names.map fun name =>
    .record [("name", str name), ("match", str ("/" ++ name)), ("reply", str "x")]))]

/-- The commands of an accepted script have the given names, and there are classes for them. -/
def Emits (names : List Text) (d : Definition) (m : Module) : Prop :=
  Definition.ofValue "<string>" (scriptOf names) = .ok d ∧
    Module.ofValues (partsOf d).plugin (partsOf d).commands (partsOf d).actions (partsOf d).config = .ok m ∧
    d.commands.map (·.name) = names ∧ d.actions = []

theorem ping_pong_kept :
    (∃ d m, Emits ["ping", "Pong"] d m ∧ m.classNames.Nodup) ∧
    ∃ d m, Emits ["ping", "Ping"] d m ∧ (d.commands.map (·.internalName)).Nodup ∧ ¬ m.classNames.Nodup := by
  constructor
  · obtain ⟨d, m, hd, hm, hnames, hactions⟩ : ∃ d m, Emits ["ping", "Pong"] d m := ⟨_, _, rfl, rfl, rfl, rfl⟩
    have hkept := components_kept_iff hd (parts_toValue d) hm
    rw [hnames, hactions] at hkept
    exact ⟨d, m, ⟨hd, hm, hnames, hactions⟩, (hkept.mpr (by decide +kernel)).1⟩
  · obtain ⟨d, m, ⟨hd, hm, hnames, hactions⟩, hidentifiers⟩ :
        ∃ d m, Emits ["ping", "Ping"] d m ∧ d.commands.map (·.internalName) = ["ping", "Ping"] :=
      ⟨_, _, ⟨rfl, rfl, rfl, rfl⟩, by decide +kernel⟩
    have hkept := components_kept_iff hd (parts_toValue d) hm
    have hapart : (d.commands.map (·.internalName)).Nodup := by
      rw [hidentifiers]
      decide +kernel
    rw [hnames, hactions] at hkept
    refine ⟨d, m, ⟨hd, hm, hnames, hactions⟩, hapart, fun h => ?_⟩
    exact absurd (hkept.mp ⟨h, hapart, List.nodup_nil⟩) (by decide +kernel)

/-- Commands with different names can have one identifier and one class. -/
theorem spaced_names_clash :
    ∃ d m, Emits ["a b", "a_b"] d m ∧ (d.commands.map (·.name)).Nodup ∧
      d.commands.map (·.internalName) = ["a_b", "a_b"] ∧ m.classNames = ["PCmdAB", "PCmdAB", "PPlugin"] :=
  ⟨_, _, ⟨rfl, rfl, rfl, rfl⟩, by decide +kernel, by decide +kernel, by decide +kernel⟩

end PluginKit.Package
