import PluginKit.Bridge.Run
import PluginKit.Proofs.Bridge.Passes
import PluginKit.Proofs.Registrar.Names

/-!
# The names of components on both sides

The components of a plugin file get their names twice. The passes over its text invent names for the components
that have none, one series for replies and one for commands, and so does the registrar that runs the file, in a
single series. A given name is the same on both sides. An invented one never is: the component that a pass reports
under it is there only if another command of the file happens to have it as its given name
(`reported_registered_iff`).
-/

namespace PluginKit.Bridge

open Text List
open Registrar (Naming Names Call Datum Handler autoName State)

/-! ### Invented names -/

def autoReply (i : Nat) : Text := s!"auto_reply_{i}"

def autoCommand (i : Nat) : Text := s!"auto_cmd_{i}"

/-- Behind the common beginning of all invented names, a number does not begin with a letter. -/
theorem autoName_ne {c : Char} (hc : c.isDigit = false) (k : Nat) (s : Text) :
    autoName k ≠ "auto_" ++ .scalar c :: s := by
  intro h
  rw [autoName, ofString_numbered] at h
  have hmem : CodePoint.scalar c ∈ (Nat.toDigits 10 k).map CodePoint.scalar := by
    rw [append_cancel_left h]
    exact mem_cons_self
  obtain ⟨d, hd, he⟩ := mem_map.mp hmem
  cases he
  rw [Nat.isDigit_of_mem_toDigits (by decide) (by decide) hd] at hc
  cases hc

theorem autoName_ne_autoReply (k i : Nat) : autoName k ≠ autoReply i := by
  rw [autoReply, ofString_numbered]
  exact autoName_ne (c := 'r') (by decide) k _

theorem autoName_ne_autoCommand (k i : Nat) : autoName k ≠ autoCommand i := by
  rw [autoCommand, ofString_numbered]
  exact autoName_ne (c := 'c') (by decide) k _

/-! ### Names that the passes report -/

theorem mem_register {n : Text} {r : Registration} {items : List Registration} :
    n ∈ (register r items).map (·.name) ↔ n = r.name ∨ n ∈ items.map (·.name) := by
  induction items with
  | nil => simp [register]
  | cons old rest ih =>
    rw [register]
    split
    · next h =>
      rw [map_cons, map_cons, mem_cons, mem_cons, h, or_self_left]
    · rw [map_cons, map_cons, mem_cons, mem_cons, ih, or_left_comm]

/-- Of several components with one name one stays, so no name is lost. -/
theorem mem_mergeByName {n : Text} {items : List Registration} :
    n ∈ (mergeByName items).map (·.name) ↔ n ∈ items.map (·.name) := by
  have hfold : ∀ acc : List Registration, n ∈ (items.foldl (fun acc r => register r acc) acc).map (·.name) ↔
      n ∈ acc.map (·.name) ∨ n ∈ items.map (·.name) := by
    induction items with
    | nil => simp
    | cons r items ih =>
      intro acc
      rw [foldl_cons, ih, mem_register, map_cons, mem_cons, or_assoc, or_left_comm]
  rw [mergeByName, hfold]
  simp

/-- The first of the names with the numbers from `next` on, and the others. -/
theorem exists_numbered_succ {name : Nat → Text} {next count : Nat} {n : Text} :
    (∃ i, next ≤ i ∧ i < next + (count + 1) ∧ n = name i) ↔
      n = name next ∨ ∃ i, next + 1 ≤ i ∧ i < next + 1 + count ∧ n = name i := by
  constructor
  · rintro ⟨i, h1, h2, rfl⟩
    by_cases hi : i = next
    · exact .inl (by rw [hi])
    · exact .inr ⟨i, by omega, by omega, rfl⟩
  · rintro (rfl | ⟨i, h1, h2, rfl⟩)
    · exact ⟨next, by omega, by omega, rfl⟩
    · exact ⟨i, by omega, by omega, rfl⟩

theorem mem_replyRegistrations {n : Text} {calls : List ReplyCall} : ∀ {next : Nat},
    n ∈ (replyRegistrations next calls).map (·.name) ↔ (∃ call ∈ calls, call.name = some n) ∨
      ∃ i, next ≤ i ∧ i < next + calls.countP (·.name.isNone) ∧ n = autoReply i := by
  induction calls with
  | nil =>
    intro next
    simp only [replyRegistrations, map_nil, not_mem_nil, countP_nil, false_and, exists_false,
      false_or, false_iff, not_exists, not_and]
    intro i h1 h2
    omega
  | cons call calls ih =>
    intro next
    rw [replyRegistrations]
    cases h : call.name with
    | some name =>
      simp only [map_cons, mem_cons, ih, countP_cons, h, Option.isNone_some, Bool.false_eq_true,
        if_false, Nat.add_zero, exists_eq_or_imp, Option.some.injEq, eq_comm (a := name), or_assoc]
    | none =>
      simp only [map_cons, mem_cons, ih, countP_cons, h, Option.isNone_none, if_true,
        exists_eq_or_imp, reduceCtorEq, false_or]
      rw [exists_numbered_succ, or_left_comm]
      rfl

theorem mem_numberedCommands {n : Text} {details : List Details} : ∀ {next : Nat},
    n ∈ (numberedCommands next details).map (·.name) ↔
      ∃ i, next ≤ i ∧ i < next + details.length ∧ n = autoCommand i := by
  induction details with
  | nil =>
    intro next
    simp only [numberedCommands, map_nil, not_mem_nil, length_nil, false_iff, not_exists, not_and]
    intro i h1 h2
    omega
  | cons d details ih =>
    intro next
    rw [numberedCommands, map_cons, mem_cons, ih, length_cons, exists_numbered_succ]
    rfl

theorem needsMark_keyed {α : Type} (key : Text) (value : Scanner α) : NeedsMark key (keyed key value) := by
  intro s hs
  rw [keyed, after_eq_none hs]
  rfl

theorem Written.name_block {w : Written} (hw : w.WellFormed) {role : Role} {before name : Text}
    (h : w.form = .object role before name) : (Fields.ofText (w.block before name)).name = some name := by
  have hform := hw.form
  rw [h] at hform
  obtain ⟨-, hbefore, hne, hname⟩ := hform
  have hn : CodePoint.scalar 'n' ∉ ("ame" : Text) := by decide
  let tail := w.rest.takeWhile (· != .scalar '\x7d')
  have hread : keyed "name" quotedText ("name" ++ (w.pad 2 ++ .scalar ':' :: (w.pad 3 ++ (w.quoted name ++ tail))))
      = some (name, tail) := by
    have hcolon : afterBlanks ":" (w.pad 2 ++ .scalar ':' :: (w.pad 3 ++ (w.quoted name ++ tail)))
        = some (w.pad 3 ++ (w.quoted name ++ tail)) := afterBlanks_append (hw.pad 2) (by decide) _
    have hskip := skipBlanks_append (s := w.quoted name ++ tail) (hw.pad 3)
      (avoids_cons (isBlank_of_isQuote hw.quote))
    have hquoted := quotedText_append hw.quote hne (fun c hc => (hname c hc).1) tail
    simp only [keyed, after_append, Option.bind_eq_bind, Option.bind_some, hcolon, hskip]
    simpa [Written.quoted] using hquoted
  show findFirst? (keyed "name" quotedText) (before ++ ("name" ++ _)) = _
  rw [findFirst?_quiet (needsMark_keyed "name" quotedText) hn hbefore (.inr rfl)]
  exact findFirst?_of_some hread

/-! ### The names of a file -/

namespace Form

/-- What the form says about the name of its component. -/
def naming : Form → Naming
  | reply _ _ (some name) => .command name
  | object .command _ name => .command name
  | object .action _ name => .action name
  | _ => .unnamed

def isUnnamedReply : Form → Bool
  | reply _ _ none => true
  | _ => false

def isUnnamedCommand : Form → Bool
  | pattern _ => true
  | catchAll => true
  | _ => false

end Form

namespace SourceFile

/-- What the registrations say about the names of their components. -/
def namings (f : SourceFile) : List Naming := f.entries.map (·.form.naming)

def commandNames (f : SourceFile) : List Text := f.namings.filterMap Naming.commandName?

def actionNames (f : SourceFile) : List Text := f.namings.filterMap Naming.actionName?

/-- The names that the passes invent. -/
def inventedNames (f : SourceFile) : List Text :=
  (List.range (f.entries.countP (·.form.isUnnamedReply))).map autoReply ++
    (List.range (f.entries.countP (·.form.isUnnamedCommand))).map autoCommand

section
variable {f : SourceFile} {n : Text}

theorem mem_commandNames : n ∈ f.commandNames ↔ (∃ w ∈ f.entries, ∃ source text, w.form = .reply source text (some n)) ∨
    ∃ w ∈ f.entries, ∃ before, w.form = .object .command before n := by
  have hnaming : ∀ form : Form, form.naming.commandName? = some n ↔
      (∃ source text, form = .reply source text (some n)) ∨ ∃ before, form = .object .command before n := by
    rintro (⟨source, text, _ | name⟩ | _ | _ | ⟨_ | _, before, name⟩) <;>
      simp [Form.naming, Naming.commandName?]
  simp only [commandNames, namings, mem_filterMap, mem_map, exists_exists_and_eq_and, hnaming]
  constructor
  · rintro ⟨w, hw, h | h⟩
    · exact .inl ⟨w, hw, h⟩
    · exact .inr ⟨w, hw, h⟩
  · rintro (⟨w, hw, h⟩ | ⟨w, hw, h⟩)
    · exact ⟨w, hw, .inl h⟩
    · exact ⟨w, hw, .inr h⟩

theorem mem_actionNames : n ∈ f.actionNames ↔ ∃ w ∈ f.entries, ∃ before, w.form = .object .action before n := by
  have hnaming : ∀ form : Form, form.naming.actionName? = some n ↔ ∃ before, form = .object .action before n := by
    rintro (⟨source, text, _ | name⟩ | _ | _ | ⟨_ | _, before, name⟩) <;>
      simp [Form.naming, Naming.actionName?]
  simp only [actionNames, namings, mem_filterMap, mem_map, exists_exists_and_eq_and, hnaming]

theorem mem_inventedNames : n ∈ f.inventedNames ↔
    (∃ i, i < f.entries.countP (·.form.isUnnamedReply) ∧ n = autoReply i) ∨
      ∃ i, i < f.entries.countP (·.form.isUnnamedCommand) ∧ n = autoCommand i := by
  simp only [inventedNames, mem_append, mem_map, mem_range, eq_comm (a := n)]

theorem autoName_not_mem_inventedNames (k : Nat) : autoName k ∉ f.inventedNames := by
  rw [mem_inventedNames]
  rintro (⟨i, -, h⟩ | ⟨i, -, h⟩)
  · exact autoName_ne_autoReply k i h
  · exact autoName_ne_autoCommand k i h

theorem exists_reply?_name : (∃ call ∈ f.entries.filterMap Written.reply?, call.name = some n) ↔
    ∃ w ∈ f.entries, ∃ source text, w.form = .reply source text (some n) := by
  have hreply : ∀ w : Written, (∃ call, w.reply? = some call ∧ call.name = some n) ↔
      ∃ source text, w.form = .reply source text (some n) := by
    intro w
    rw [Written.reply?]
    cases w.form with
    | reply source text name => simp
    | _ => simp
  simp only [mem_filterMap, ← hreply]
  exact ⟨fun ⟨call, ⟨w, hw, hc⟩, hn⟩ => ⟨w, hw, call, hc, hn⟩, fun ⟨w, hw, call, hc, hn⟩ => ⟨call, ⟨w, hw, hc⟩, hn⟩⟩

theorem countP_reply?_unnamed : (f.entries.filterMap Written.reply?).countP (·.name.isNone)
    = f.entries.countP (·.form.isUnnamedReply) := by
  rw [countP_filterMap]
  refine countP_congr fun w _ => ?_
  rw [Written.reply?]
  rcases w.form with ⟨source, text, _ | name⟩ | _ | _ | _ <;> simp [Form.isUnnamedReply]

theorem length_unnamed : (f.entries.filterMap Written.pattern?).length + (f.entries.filterMap Written.catchAll?).length
    = f.entries.countP (·.form.isUnnamedCommand) := by
  induction f.entries with
  | nil => rfl
  | cons w ws ih =>
    rw [countP_cons, ← ih, filterMap_cons, filterMap_cons, Written.pattern?, Written.catchAll?]
    cases w.form with
    | pattern literal => simp [Form.isUnnamedCommand]; omega
    | catchAll => simp [Form.isUnnamedCommand]; omega
    | _ => simp [Form.isUnnamedCommand]

theorem exists_block?_name {w : Written} (hw : w.WellFormed) (role : Role) :
    (∃ block, w.block? role = some block ∧ (Fields.ofText block).name = some n) ↔
      ∃ before, w.form = .object role before n := by
  rw [Written.block?]
  cases h : w.form with
  | object r before name =>
    have hname := Written.name_block hw h
    by_cases hr : r = role
    · subst hr
      simp [hname]
    · simp [hr]
  | _ => simp

theorem mem_objectRegistrations (hf : f.WellFormed) (role : Role) :
    n ∈ (objectRegistrations (f.entries.filterMap (Written.block? role))).map (·.name) ↔
      ∃ w ∈ f.entries, ∃ before, w.form = .object role before n := by
  have hmem : n ∈ (objectRegistrations (f.entries.filterMap (Written.block? role))).map (·.name) ↔
      ∃ w ∈ f.entries, ∃ block, w.block? role = some block ∧ (Fields.ofText block).name = some n := by
    simp only [objectRegistrations, mem_map, mem_filterMap, Option.map_eq_some_iff]
    constructor
    · rintro ⟨_, ⟨block, ⟨w, hw, hb⟩, name, hname, rfl⟩, rfl⟩
      exact ⟨w, hw, block, hb, hname⟩
    · rintro ⟨w, hw, block, hb, hname⟩
      exact ⟨_, ⟨block, ⟨w, hw, hb⟩, n, hname, rfl⟩, rfl⟩
  rw [hmem]
  exact exists_congr fun w => and_congr_right fun hw => exists_block?_name (hf.entries w hw) role

/-- **The passes report** the commands with a given name, and all others with an invented one. -/
theorem mem_reported_commands (hf : f.WellFormed) :
    n ∈ (Registrations.ofText f.text).commands.map (·.name) ↔ n ∈ f.commandNames ∨ n ∈ f.inventedNames := by
  have hobjects := findAll_objectCall hf.scannable .command
  rw [Written.roleFunction] at hobjects
  rw [Registrations.ofText, mem_mergeByName, scannedCommands, findAll_replyCall hf.scannable, hobjects,
    findAll_patternCall hf.scannable, findAll_catchAllCall hf.scannable]
  simp only [map_append, mem_append, mem_replyRegistrations, mem_objectRegistrations hf,
    mem_numberedCommands, exists_reply?_name, countP_reply?_unnamed, length_append, length_map,
    length_unnamed, mem_commandNames, mem_inventedNames, Nat.zero_le, Nat.zero_add, true_and]
  exact (or_congr_left or_right_comm).trans or_assoc

theorem mem_reported_actions (hf : f.WellFormed) :
    n ∈ (Registrations.ofText f.text).actions.map (·.name) ↔ n ∈ f.actionNames := by
  have hobjects := findAll_objectCall hf.scannable .action
  rw [Written.roleFunction] at hobjects
  rw [Registrations.ofText, hobjects, mem_objectRegistrations hf, mem_actionNames]

end

end SourceFile

/-! ### Running the file -/

/-- The call that a registration makes when the file is run. The values behind a pattern, a function and an object
literal can be any; of an object literal the name is known. -/
inductive Makes : Form → Call → Prop where
  | reply (source text answer : Text) (pattern : Datum) :
    Makes (.reply source text none) (.reply [pattern, .text answer])
  | namedReply (source text name answer : Text) (pattern : Datum) :
    Makes (.reply source text (some name)) (.reply [pattern, .text answer, .text name])
  | pattern (literal : Literal) (pattern : Datum) (handler : Handler) (hp : pattern.isPattern = true) :
    Makes (.pattern literal) (.command [pattern, .handler handler])
  | catchAll (handler : Handler) : Makes .catchAll (.command [.handler handler])
  | command (before name : Text) (config : Datum) (hc : config.isObject = true)
    (hname : config.property "name" = .text name) : Makes (.object .command before name) (.command [config])
  | action (before name : Text) (config : Datum) (hc : config.isObject = true)
    (hname : config.property "name" = .text name) : Makes (.object .action before name) (.action [config])

theorem Makes.names {form : Form} {call : Call} (h : Makes form call) (hform : form.WellFormed) :
    Names call form.naming := by
  cases h with
  | reply source text answer pattern => exact .reply pattern answer
  | namedReply source text name answer pattern => exact .namedReply pattern answer name (hform.2.2.2 name rfl).1
  | pattern literal pattern handler hp => exact .pattern pattern handler hp
  | catchAll handler => exact .catchAll handler
  | command before name config hc hname => exact .command config name hc hname hform.2.2.1
  | action before name config hc hname => exact .action config name hc hname hform.2.2.1

namespace SourceFile

/-- The calls that a file makes when it is run. -/
def Runs (f : SourceFile) (calls : List Call) : Prop :=
  List.Forall₂ (fun w call => Makes w.form call) f.entries calls

section
variable {f : SourceFile} {calls : List Call} {s : State}

theorem Runs.names (h : f.Runs calls) (hf : f.WellFormed) : List.Forall₂ Names calls f.namings := by
  have hentries : ∀ {ws : List Written} {calls : List Call}, (∀ w ∈ ws, w.WellFormed) →
      List.Forall₂ (fun w call => Makes w.form call) ws calls →
      List.Forall₂ Names calls (ws.map (·.form.naming)) := by
    intro ws calls hws h
    induction h with
    | nil => exact .nil
    | @cons w call ws calls hmakes _ ih =>
      exact .cons (hmakes.names (hws w mem_cons_self).form) (ih fun x hx => hws x (mem_cons_of_mem _ hx))
  exact hentries hf.entries h

/-- **The registrar knows** the commands with a given name, and all others under a number. -/
theorem hasCommand_iff (hf : f.WellFormed) (hcalls : f.Runs calls)
    (hrun : State.initial.performAll calls = (s, .ok ())) (n : Text) : s.registry.HasCommand n ↔
      n ∈ f.commandNames ∨ ∃ k, 0 < k ∧ k ≤ f.namings.countP Naming.isUnnamed ∧ n = autoName k := by
  rw [(Registrar.performAll_names (hcalls.names hf) hrun).1 n, or_iff_right (Registrar.not_hasCommand_initial n)]
  simp only [State.initial, Nat.zero_add]
  rfl

theorem hasAction_iff (hf : f.WellFormed) (hcalls : f.Runs calls)
    (hrun : State.initial.performAll calls = (s, .ok ())) (n : Text) :
    s.registry.HasAction n ↔ n ∈ f.actionNames := by
  rw [(Registrar.performAll_names (hcalls.names hf) hrun).2 n, or_iff_right (Registrar.not_hasAction_initial n)]
  rfl

/-- A reported command is there if its name was given, and not if it was invented. -/
theorem hasCommand_reported_iff (hf : f.WellFormed) (hcalls : f.Runs calls)
    (hrun : State.initial.performAll calls = (s, .ok ())) {n : Text}
    (hn : n ∈ f.commandNames ∨ n ∈ f.inventedNames) : s.registry.HasCommand n ↔ n ∈ f.commandNames := by
  rw [hasCommand_iff hf hcalls hrun]
  refine ⟨fun h => h.elim id ?_, .inl⟩
  rintro ⟨k, -, -, rfl⟩
  exact hn.resolve_right (autoName_not_mem_inventedNames k)

theorem scriptExit_missing (hrun : State.initial.performAll calls = (s, .ok ())) {n : Text}
    (hn : s.registry.component? (.text n) = none) (errors : Text) (context : Datum) :
    scriptExit errors calls (.text n) context
      = .finished 0 (Registrar.Answer.print ⟨false, .text ("未找到组件：" ++ n), []⟩) "" := by
  have hexecute : (s.registry.execute (.text n) context).outcome = .ok ⟨false, .text ("未找到组件：" ++ n), []⟩ := by
    rw [Registrar.Registry.execute, hn]
    rfl
  rw [scriptExit, hrun]
  simp only [hexecute]

/-- **Reported names and registered ones.** All components that the passes report over a file are registered when it
is run if and only if each name that the passes invent is also the given name of a command. A reported action always
is registered, a reported command is only under a given name, and a run for any other is answered with an objection
unless an action has that name. -/
theorem reported_registered_iff (hf : f.WellFormed) (hcalls : f.Runs calls)
    (hrun : State.initial.performAll calls = (s, .ok ())) :
    ((∀ c ∈ (Registrations.ofText f.text).commands, s.registry.HasCommand c.name) ∧
        (∀ a ∈ (Registrations.ofText f.text).actions, s.registry.HasAction a.name) ↔
      ∀ n ∈ f.inventedNames, n ∈ f.commandNames) ∧
    (∀ a ∈ (Registrations.ofText f.text).actions, s.registry.HasAction a.name) ∧
    (∀ c ∈ (Registrations.ofText f.text).commands, s.registry.HasCommand c.name ↔ c.name ∈ f.commandNames) ∧
    ∀ c ∈ (Registrations.ofText f.text).commands, c.name ∉ f.commandNames → c.name ∉ f.actionNames →
      ∀ errors context, scriptExit errors calls (.text c.name) context
        = .finished 0 (Registrar.Answer.print ⟨false, .text ("未找到组件：" ++ c.name), []⟩) "" := by
  have hactions : ∀ a ∈ (Registrations.ofText f.text).actions, s.registry.HasAction a.name := by
    intro a ha
    rw [hasAction_iff hf hcalls hrun, ← mem_reported_actions hf]
    exact List.mem_map_of_mem ha
  have hcommands : ∀ c ∈ (Registrations.ofText f.text).commands,
      s.registry.HasCommand c.name ↔ c.name ∈ f.commandNames := by
    intro c hc
    exact hasCommand_reported_iff hf hcalls hrun ((mem_reported_commands hf).mp (List.mem_map_of_mem hc))
  refine ⟨⟨fun h n hn => ?_, fun h => ⟨fun c hc => ?_, hactions⟩⟩, hactions, hcommands, ?_⟩
  · obtain ⟨c, hc, rfl⟩ := List.mem_map.mp ((mem_reported_commands hf).mpr (.inr hn))
    exact (hcommands c hc).mp (h.1 c hc)
  · refine (hcommands c hc).mpr ?_
    exact ((mem_reported_commands hf).mp (List.mem_map_of_mem hc)).elim id (h c.name)
  · intro c hc hgiven haction errors context
    refine scriptExit_missing hrun ((Registrar.component?_eq_none_iff _ _).mpr ⟨?_, ?_⟩) errors context
    · rwa [hcommands c hc]
    · rwa [hasAction_iff hf hcalls hrun]

end

def idle : Handler := .steps [] (.returns .undefined)

/-- A file with a named reply, a command without a name and an action. -/
def mixedFile : SourceFile where
  preamble := "// 示例\n"
  entries := [
    ⟨.reply "/^ping$/" "Pong" (some "ping"), fun _ => " ", '\'', false, ";\n"⟩,
    ⟨.pattern (.regex "^roll$" "i"), fun _ => "", '"', true, "ctx) => \x7b \x7d);\n"⟩,
    ⟨.object .action " " "greet", fun _ => "", '\'', true, ", execute: async (ctx) => \x7b \x7d \x7d);\n"⟩]

def mixedCalls : List Call := [
  .reply [.regex "^ping$" "", .text "Pong", .text "ping"],
  .command [.regex "^roll$" "i", .handler idle],
  .action [.object [("name", .text "greet"), ("execute", .handler idle)]]]

theorem mixedFile_wellFormed : mixedFile.WellFormed := by
  have hname : PlainName "ping" := ⟨by decide, by decide⟩
  have hreply : (Form.reply "/^ping$/" "Pong" (some "ping")).WellFormed :=
    ⟨⟨.scalar '/', "^ping$/", rfl, rfl, by decide⟩, by decide, by decide, fun n hn => by cases hn; exact hname⟩
  have hpattern : (Form.pattern (.regex "^roll$" "i")).WellFormed := ⟨by decide, rfl, by decide⟩
  have haction : (Form.object .action " " "greet").WellFormed := ⟨by decide, rfl, by decide, by decide⟩
  refine ⟨rfl, ?_⟩
  simp only [mixedFile, forall_mem_cons]
  refine ⟨⟨hreply, fun _ => ?_, rfl, nofun, rfl⟩, ⟨hpattern, fun _ => nofun, rfl, nofun, rfl⟩,
    ⟨haction, fun _ => nofun, rfl, fun _ _ _ _ => by decide, rfl⟩, nofun⟩
  show AllBlank " "
  unfold AllBlank
  decide

theorem mixedFile_runs : mixedFile.Runs mixedCalls :=
  .cons (.namedReply _ _ _ _ _) (.cons (.pattern _ _ _ rfl) (.cons (.action _ _ _ rfl rfl) .nil))

/-- The command without a name is reported and missing. -/
theorem mixedFile_not_all_registered : mixedFile.WellFormed ∧ mixedFile.Runs mixedCalls ∧
    ∃ s, State.initial.performAll mixedCalls = (s, .ok ()) ∧
      ¬ ((∀ c ∈ (Registrations.ofText mixedFile.text).commands, s.registry.HasCommand c.name) ∧
        ∀ a ∈ (Registrations.ofText mixedFile.text).actions, s.registry.HasAction a.name) := by
  refine ⟨mixedFile_wellFormed, mixedFile_runs, _, rfl, fun h => ?_⟩
  have hgiven := (reported_registered_iff mixedFile_wellFormed mixedFile_runs rfl).1.mp h "auto_cmd_0" (by decide)
  revert hgiven
  decide

end SourceFile

/-- One command without a name: it is reported under one name, registered under another, and not found. -/
theorem unnamedCommand_not_found :
    (Registrations.ofText "mai.command(/x/, async (ctx) => \x7b \x7d);").commands.map (·.name) = ["auto_cmd_0"] ∧
    (State.initial.performAll [.command [.regex "x" "", .handler SourceFile.idle]]).1.registry.commands.map (·.name)
      = [.text "auto_1"] ∧
    ∀ context, scriptExit "" [.command [.regex "x" "", .handler SourceFile.idle]] (.text "auto_cmd_0") context
      = .finished 0 (Registrar.Answer.print ⟨false, .text "未找到组件：auto_cmd_0", []⟩) "" :=
  ⟨by decide, rfl, fun _ => rfl⟩

end PluginKit.Bridge
