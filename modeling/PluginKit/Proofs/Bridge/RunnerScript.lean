import PluginKit.Bridge.Run
import PluginKit.Proofs.Json.Compact

/-!
# The script that runs a component

The script is a fixed text with four literals in it: the paths of the registrar and of the plugin file, the name of the
component, and its context. Whatever these are, each stays on the line that declares it, so that nothing in it can get
out of its literal, and all of them can be read back from the script (`Request.script_holds`).
-/

namespace PluginKit.Bridge

open List
open Json (IsPrintable MadeOf Short joinHalves joined compactText)

/-! ### Lines -/

/-- The line that gives a name to a literal, by the text before the literal. -/
def declaration (label literal : Text) : Text := label ++ literal ++ ";"

def openingLines : List Text :=
  ["", "const path = require('path');", "const fs = require('fs');", "", "// 加载 SDK"]

def registrarLines : List Text :=
  ["const sdk = require(sdkPath);", "", "// 上下文数据"]

/-- The lines between the context and the path of the plugin file. -/
def globalLines : List Text :=
  ["", "// 创建 mai 全局对象（注册器）", "const registrations = sdk.createRegistrar();", "global.mai = registrations.mai;",
    "", "// 加载插件文件"]

/-- The lines between the path of the plugin file and the name of the component. -/
def pluginLines : List Text :=
  ["require(pluginPath);", "", "// 执行指定组件"]

def scriptLines (sdk data plugin component : Text) : List Text :=
  openingLines ++ declaration "const sdkPath = " sdk :: registrarLines ++
    declaration "const contextData = " data :: globalLines ++
    declaration "const pluginPath = " plugin :: pluginLines ++ [declaration "const componentName = " component]

def scriptEnd : Text := scriptTail.drop 2

theorem scriptHead_eq : scriptHead = Text.join "\n" openingLines ++ "\n" ++ "const sdkPath = " := by
  simp only [scriptHead, openingLines, Text.join]
  repeat rw [Text.ofString_ofList]
  rfl

theorem scriptContext_eq : scriptContext = ";\n" ++ Text.join "\n" registrarLines ++ "\n" ++ "const contextData = " := by
  simp only [scriptContext, registrarLines, Text.join]
  repeat rw [Text.ofString_ofList]
  rfl

theorem scriptPlugin_eq : scriptPlugin = ";\n" ++ Text.join "\n" globalLines ++ "\n" ++ "const pluginPath = " := by
  simp only [scriptPlugin, globalLines, Text.join]
  repeat rw [Text.ofString_ofList]
  rfl

theorem scriptComponent_eq :
    scriptComponent = ";\n" ++ Text.join "\n" pluginLines ++ "\n" ++ "const componentName = " := by
  simp only [scriptComponent, pluginLines, Text.join]
  repeat rw [Text.ofString_ofList]
  rfl

theorem scriptTail_eq : scriptTail = ";\n" ++ scriptEnd := by
  simp only [scriptEnd, scriptTail]
  repeat rw [Text.ofString_ofList]
  rfl

theorem join_declaration {label literal : Text} {lines : List Text} (h : lines ≠ []) :
    Text.join "\n" (declaration label literal :: lines) = label ++ literal ++ (";\n" ++ Text.join "\n" lines) := by
  rw [← singleton_append, Text.join_append (cons_ne_nil _ _) h]
  simp [Text.join, declaration, Text.ofString]

/-- **The script consists of its lines.** -/
theorem script_eq_join (sdk data plugin component : Text) :
    scriptHead ++ sdk ++ scriptContext ++ data ++ scriptPlugin ++ plugin ++ scriptComponent ++ component ++ scriptTail
      = Text.join "\n" (scriptLines sdk data plugin component) ++ .scalar '\n' :: scriptEnd := by
  have hlast : Text.join "\n" [declaration "const componentName = " component] ++ .scalar '\n' :: scriptEnd
      = "const componentName = " ++ component ++ (";\n" ++ scriptEnd) := by
    simp [Text.join, declaration, Text.ofString]
  rw [scriptLines, Text.join_append (by simp) (cons_ne_nil _ _), Text.join_append (by simp) (cons_ne_nil _ _),
    Text.join_append (by simp) (cons_ne_nil _ _), Text.join_append (by decide) (cons_ne_nil _ _),
    join_declaration (by decide), join_declaration (by decide), join_declaration (by decide), scriptHead_eq,
    scriptContext_eq, scriptPlugin_eq, scriptComponent_eq, scriptTail_eq]
  simp only [append_assoc, hlast]

theorem newline_not_mem_declaration {label literal : Text} (hlabel : IsPrintable label) (h : IsPrintable literal) :
    (.scalar '\n' : CodePoint) ∉ declaration label literal :=
  ((hlabel.append h).append (by decide)).newline_not_mem

theorem count_append_printable (s : Text) {t : Text} (ht : IsPrintable t) :
    (s ++ t).count (.scalar '\n') = s.count (.scalar '\n') := by
  rw [count_append, count_eq_zero.mpr ht.newline_not_mem, Nat.add_zero]

/-- The literal of the first line of a script that begins with a label. -/
def declared (label script : Text) : Option Text :=
  ((Text.splitOn '\n' script).find? label.isPrefixOf).map fun line => (line.drop label.length).dropLast

theorem declared_eq {label literal script : Text} {before after : List Text}
    (hlines : Text.splitOn '\n' script = before ++ declaration label literal :: after)
    (hbefore : ∀ line ∈ before, label.isPrefixOf line = false) : declared label script = some literal := by
  have hfind : before.find? label.isPrefixOf = none := by
    rw [List.find?_eq_none]
    intro line hline
    rw [hbefore line hline]
    exact Bool.false_ne_true
  have hself : label.isPrefixOf (declaration label literal) = true := by
    rw [ isPrefixOf_iff_prefix, declaration, append_assoc]
    exact prefix_append _ _
  have hdrop : (declaration label literal).drop label.length = literal ++ [.scalar ';'] := by
    rw [declaration, append_assoc, drop_left]
    rfl
  rw [declared, hlines, List.find?_append, hfind, Option.none_or, find?_cons_of_pos hself, Option.map_some, hdrop,
    dropLast_concat]

section
variable {sdk data plugin component : Text}

theorem splitOn_script (hsdk : IsPrintable sdk) (hdata : IsPrintable data) (hplugin : IsPrintable plugin)
    (hcomponent : IsPrintable component) :
    Text.splitOn '\n' (Text.join "\n" (scriptLines sdk data plugin component) ++ .scalar '\n' :: scriptEnd)
      = scriptLines sdk data plugin component ++ Text.splitOn '\n' scriptEnd := by
  have hfixed : ∀ line ∈ openingLines ++ registrarLines ++ globalLines ++ pluginLines,
      (.scalar '\n' : CodePoint) ∉ line := by
    simp only [openingLines, registrarLines, globalLines, pluginLines]
    repeat rw [Text.ofString_ofList]
    decide +kernel
  simp only [forall_mem_append] at hfixed
  obtain ⟨⟨⟨hopening, hregistrar⟩, hglobal⟩, hafter⟩ := hfixed
  refine Text.splitOn_join_append (s := "") ?_ scriptEnd
  show ∀ line ∈ scriptLines sdk data plugin component, _
  simp only [scriptLines, forall_mem_append, forall_mem_cons]
  exact ⟨⟨⟨⟨hopening, newline_not_mem_declaration (by decide) hsdk, hregistrar⟩,
    newline_not_mem_declaration (by decide) hdata, hglobal⟩,
    newline_not_mem_declaration (by decide) hplugin, hafter⟩, newline_not_mem_declaration (by decide) hcomponent,
    forall_mem_nil _⟩

theorem count_script (hsdk : IsPrintable sdk) (hdata : IsPrintable data) (hplugin : IsPrintable plugin)
    (hcomponent : IsPrintable component) :
    (scriptHead ++ sdk ++ scriptContext ++ data ++ scriptPlugin ++ plugin ++ scriptComponent ++ component ++
        scriptTail).count (.scalar '\n')
      = (scriptHead ++ scriptContext ++ scriptPlugin ++ scriptComponent ++ scriptTail).count (.scalar '\n') := by
  rw [count_append, count_append_printable _ hcomponent, count_append, count_append_printable _ hplugin,
    count_append, count_append_printable _ hdata, count_append, count_append_printable _ hsdk,
    ← count_append, ← count_append, ← count_append, ← count_append]

/-- The three literals that a script is asked for can be found in it. -/
theorem declared_script {script : Text} (hlines : Text.splitOn '\n' script
      = scriptLines sdk data plugin component ++ Text.splitOn '\n' scriptEnd) :
    declared "const contextData = " script = some data ∧ declared "const pluginPath = " script = some plugin ∧
      declared "const componentName = " script = some component := by
  have hfixed : ∀ line ∈ openingLines ++ registrarLines ++ globalLines ++ pluginLines,
      List.isPrefixOf "const contextData = " line = false ∧ List.isPrefixOf "const pluginPath = " line = false ∧
        List.isPrefixOf "const componentName = " line = false := by
    simp only [openingLines, registrarLines, globalLines, pluginLines]
    repeat rw [Text.ofString_ofList]
    decide +kernel
  simp only [forall_mem_append] at hfixed
  obtain ⟨⟨⟨hopening, hregistrar⟩, hglobal⟩, hplugin⟩ := hfixed
  have hcomponent : Text.splitOn '\n' script = openingLines ++ declaration "const sdkPath = " sdk :: registrarLines ++
      declaration "const contextData = " data :: globalLines ++ declaration "const pluginPath = " plugin :: pluginLines ++
      declaration "const componentName = " component :: Text.splitOn '\n' scriptEnd := by
    rw [hlines, scriptLines, append_assoc, singleton_append]
  have hpath := hcomponent
  rw [append_assoc, cons_append] at hpath
  have hcontext := hpath
  rw [append_assoc, cons_append] at hcontext
  refine ⟨declared_eq hcontext ?_, declared_eq hpath ?_, declared_eq hcomponent ?_⟩
  all_goals simp only [forall_mem_append, forall_mem_cons]
  · exact ⟨fun l hl => (hopening l hl).1, rfl, fun l hl => (hregistrar l hl).1⟩
  · exact ⟨⟨fun l hl => (hopening l hl).2.1, rfl, fun l hl => (hregistrar l hl).2.1⟩, rfl,
      fun l hl => (hglobal l hl).2.1⟩
  · exact ⟨⟨⟨fun l hl => (hopening l hl).2.2, rfl, fun l hl => (hregistrar l hl).2.2⟩, rfl,
      fun l hl => (hglobal l hl).2.2⟩, rfl, fun l hl => (hplugin l hl).2.2⟩

end

/-! ### Requests -/

/-- What a script is to run: a component of a plugin file, in a context. -/
structure Request where
  pluginPath : Text
  component : Text
  context : Value

def Request.script (r : Request) (sdkPath : Text) : Outcome Text :=
  runnerScript sdkPath r.pluginPath (.str r.component) r.context

/-- The request as it is read from its script: halves of surrogate pairs that stand side by side are joined. -/
def Request.received (r : Request) : Request :=
  ⟨joinHalves r.pluginPath, joinHalves r.component, joined r.context⟩

/-- No text of the request has the two halves of a surrogate pair side by side. -/
structure Request.Whole (r : Request) : Prop where
  pluginPath : joinHalves r.pluginPath = r.pluginPath
  component : joinHalves r.component = r.component
  context : MadeOf (fun _ => True) (fun s => joinHalves s = s) r.context

/-- The script is the fixed text with four literals, each on a line, and the request can be read from three of them. -/
structure Holds (script : Text) (r : Request) : Prop where
  filled : ∃ sdk data plugin component, script = scriptHead ++ sdk ++ scriptContext ++ data ++ scriptPlugin ++ plugin ++
      scriptComponent ++ component ++ scriptTail ∧
    IsPrintable sdk ∧ IsPrintable data ∧ IsPrintable plugin ∧ IsPrintable component
  lines : script.count (.scalar '\n')
    = (scriptHead ++ scriptContext ++ scriptPlugin ++ scriptComponent ++ scriptTail).count (.scalar '\n')
  context : ∃ literal, declared "const contextData = " script = some literal ∧
    ∀ limits : Json.Limits, Text.maxDigits ≤ limits.digits → Json.depth r.context ≤ limits.depth →
      Json.readWithin limits literal = .ok r.received.context
  pluginPath : ∃ literal, declared "const pluginPath = " script = some literal ∧
    ∀ limits, Json.readWithin limits literal = .ok (.str r.received.pluginPath)
  component : ∃ literal, declared "const componentName = " script = some literal ∧
    ∀ limits, Json.readWithin limits literal = .ok (.str r.received.component)

theorem Request.received_of_whole {r : Request} (h : r.Whole) : r.received = r := by
  rw [Request.received, h.pluginPath, h.component, h.context.joined_eq]

theorem Holds.received_unique {script : Text} {r r' : Request} (h : Holds script r) (h' : Holds script r') :
    r.received = r'.received := by
  let limits : Json.Limits := ⟨Text.maxDigits, max (Json.depth r.context) (Json.depth r'.context)⟩
  obtain ⟨data, hdata, hread⟩ := h.context
  obtain ⟨data', hdata', hread'⟩ := h'.context
  obtain ⟨plugin, hplugin, hpath⟩ := h.pluginPath
  obtain ⟨plugin', hplugin', hpath'⟩ := h'.pluginPath
  obtain ⟨component, hcomponent, hname⟩ := h.component
  obtain ⟨component', hcomponent', hname'⟩ := h'.component
  have hcontexts : (.ok r.received.context : Json.Reading Value) = .ok r'.received.context := by
    rw [← hread limits (Nat.le_refl _) (Nat.le_max_left _ _), ← hread' limits (Nat.le_refl _) (Nat.le_max_right _ _),
      Option.some.inj (hdata.symm.trans hdata')]
  have hpaths : (.ok (.str r.received.pluginPath) : Json.Reading Value) = .ok (.str r'.received.pluginPath) := by
    rw [← hpath limits, ← hpath' limits, Option.some.inj (hplugin.symm.trans hplugin')]
  have hnames : (.ok (.str r.received.component) : Json.Reading Value) = .ok (.str r'.received.component) := by
    rw [← hname limits, ← hname' limits, Option.some.inj (hcomponent.symm.trans hcomponent')]
  cases hr : r.received
  cases hr' : r'.received
  rw [hr, hr'] at hcontexts hpaths hnames
  cases hcontexts
  cases hpaths
  cases hnames
  rfl

/-! ### The script of a request -/

theorem write_str (s : Text) : Json.write Json.compact (.str s) = .ok (Json.quoteText true s) := by
  simp [Json.write, Json.emit, Json.scalarText?, Json.Emission.piece, Json.Emission.text, Json.compact]

theorem runnerScript_eq (sdkPath pluginPath name : Text) (context : Value) :
    runnerScript sdkPath pluginPath (.str name) context = (Json.write Json.compact context).map fun data =>
      scriptHead ++ Json.quoteText true sdkPath ++ scriptContext ++ data ++ scriptPlugin ++
        Json.quoteText true pluginPath ++ scriptComponent ++ Json.quoteText true name ++ scriptTail := by
  rw [runnerScript, write_str, write_str, write_str]
  cases Json.write Json.compact context <;> rfl

theorem readWithin_quoteText (limits : Json.Limits) (s : Text) :
    Json.readWithin limits (Json.quoteText true s) = .ok (.str (joinHalves s)) := by
  have hreads : Json.ReadsTo limits 0 (Json.quoteText true s) _ := Json.readsTo_text (Json.quotedReads_ascii s)
  rw [hreads.readWithin]
  rfl

theorem Request.holds_of_script {r : Request} {sdkPath script : Text}
    (hcontext : MadeOf (fun _ => True) (fun _ => True) r.context) (h : r.script sdkPath = .ok script) : Holds script r := by
  have hsdk := Json.isPrintable_quoteText sdkPath
  have hplugin := Json.isPrintable_quoteText r.pluginPath
  have hcomponent := Json.isPrintable_quoteText r.component
  rw [Request.script, runnerScript_eq] at h
  cases hdata : Json.write Json.compact r.context with
  | error f =>
    rw [hdata] at h
    cases h
  | ok data =>
    have hform := ((Json.write_compact_iff hcontext).mp ⟨data, hdata⟩).compactForm
    obtain rfl : data = compactText r.context := by
      rw [Json.write, (hform.written 0 []).1] at hdata
      exact (Except.ok.inj hdata).symm
    rw [hdata] at h
    obtain rfl := Except.ok.inj h
    have hlines := splitOn_script hsdk hform.printable hplugin hcomponent
    rw [← script_eq_join] at hlines
    obtain ⟨hdeclared, hpath, hname⟩ := declared_script hlines
    refine ⟨⟨_, _, _, _, rfl, hsdk, hform.printable, hplugin, hcomponent⟩,
      count_script hsdk hform.printable hplugin hcomponent, ⟨_, hdeclared, ?_⟩, ⟨_, hpath, ?_⟩, ⟨_, hname, ?_⟩⟩
    · intro limits hdigits hdepth
      rw [(hform.reads limits 0 hdigits (by omega)).readWithin]
      rfl
    · exact fun limits => readWithin_quoteText limits r.pluginPath
    · exact fun limits => readWithin_quoteText limits r.component

/-- A request whose texts try to get out of their literals. -/
def trickyRequest : Request where
  pluginPath := "/tmp/a\";b.js"
  component := "c\nprocess.exit(0);//"
  context := .dict (Value.named [("stream\u2028", .list [.null, .bool true, .int (-7), .str "\\\"😀"]),
    ("$", .dict (Value.named []))])

end PluginKit.Bridge
