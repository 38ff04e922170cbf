import PluginKit.Proofs.Json.Draft
import PluginKit.Proofs.Template.Names
import PluginKit.Template.Builtin

/-!
# Templates with their placeholders filled

The placeholders of a template are replaced as text, whatever stands around them. The manifest of each template is a
draft of a JSON text (`Kind.draft`). If the facts about a plugin hold nothing that has a meaning between quotes
(`Facts.Plain`), then its filled manifest still reads, and as the manifest with its texts filled (`read_fill_manifest`).
-/

namespace PluginKit.Template

open List
open Json (KeepsMarks Draft IsVerbatim IsPlain)

variable {s : Text} {rs : List (Text × Text)} {p : CodePoint → Prop}

/-! ### Facts that stand for themselves -/

/-- The text stands for itself between quotes, and it has a UTF-8 form. -/
structure IsSimple (s : Text) : Prop where
  verbatim : IsVerbatim s
  encodable : Encodable s

theorem IsSimple.append {t : Text} (hs : IsSimple s) (ht : IsSimple t) : IsSimple (s ++ t) :=
  ⟨forall_mem_append.mpr ⟨hs.verbatim, ht.verbatim⟩, hs.encodable.append ht.encodable⟩

theorem isSimple_of_all (h : s.all isTitleChar = true) : IsSimple s := by
  have hsimple {c : CodePoint} (hc : isTitleChar c = true) :
      (32 ≤ c.toNat ∧ c ≠ .scalar '"' ∧ c ≠ .scalar '\\') ∧ c.isSurrogate = false :=
    forall_ascii (p := fun c => isTitleChar c = true →
      (32 ≤ c.toNat ∧ c ≠ .scalar '"' ∧ c ≠ .scalar '\\') ∧ c.isSurrogate = false) (by decide +kernel)
      (caseClosed_isTitleChar.ascii hc) hc
  rw [all_eq_true] at h
  exact ⟨fun c hc => (hsimple (h c hc)).1, fun c hc => (hsimple (h c hc)).2⟩

namespace Facts

variable {f : Facts}

/-- The facts hold nothing that has a meaning between quotes. -/
structure Plain (f : Facts) : Prop where
  name : CodePoint.scalar '\n' ∉ f.name
  description : IsSimple f.description
  version : IsSimple f.version
  author : IsSimple f.author

theorem Plain.all_name (h : f.Plain) (hname : Script.isPluginName f.name = true) : f.name.all isTitleChar = true := by
  rw [all_eq_true]
  intro c hc
  rcases Script.isNameChar_of_isPluginName hname hc with hc' | rfl
  · rw [isTitleChar, hc', Bool.true_or]
  · exact absurd hc h.name

theorem Plain.replacements (h : f.Plain) (hname : Script.isPluginName f.name = true) :
    ∀ r ∈ f.replacements, IsSimple r.2 := by
  have hall := h.all_name hname
  have hclass (s : Text) (hs : s.all isTitleChar = true) : IsSimple (Script.classPrefix f.name ++ s) :=
    (isSimple_of_all (caseClosed_isTitleChar.all_classPrefix hall)).append (isSimple_of_all hs)
  simp only [Facts.replacements, forall_mem_cons, not_mem_nil, false_implies, implies_true, and_true]
  exact ⟨isSimple_of_all hall, isSimple_of_all (caseClosed_isTitleChar.all_displayName hall rfl), h.description, h.version, h.author,
    isSimple_of_all (all_year f.year), hclass _ rfl, hclass _ rfl, hclass _ rfl, hclass _ rfl, hclass _ rfl, hclass _ rfl⟩

/-! ### Filling -/

theorem keepsMarks_replaceAll {word : Text} (hword : CodePoint.scalar '"' ∉ word) (new : Text) :
    KeepsMarks (Text.replaceAll (placeholder word) new) where
  cons c s hc := by
    refine Text.replaceAll_cons fun h => hc ?_
    exact (cons_prefix_cons.mp h).1.symm
  brace c s hc := by
    refine Text.replaceAll_cons fun h => hc ?_
    exact (cons_prefix_cons.mp (cons_prefix_cons.mp h).2).1.symm
  quote s t := by
    refine Text.replaceAll_append_cons ?_ new s t
    have hbraces : CodePoint.scalar '"' ∉ Text.ofString "\x7b\x7b" ∧ CodePoint.scalar '"' ∉ Text.ofString "\x7d\x7d" := by
      decide
    show CodePoint.scalar '"' ∉ placeholder word
    rw [placeholder, mem_append, mem_append]
    rintro ((h | h) | h)
    · exact hbraces.1 h
    · exact hword h
    · exact hbraces.2 h

theorem keepsMarks_foldl (h : ∀ r ∈ rs, CodePoint.scalar '"' ∉ r.1) :
    KeepsMarks fun s => rs.foldl (fun s r => Text.replaceAll (placeholder r.1) r.2 s) s := by
  induction rs with
  | nil => exact .id
  | cons r rs ih =>
    obtain ⟨hr, hrs⟩ := forall_mem_cons.mp h
    exact (keepsMarks_replaceAll hr r.2).comp (ih hrs)

theorem keepsMarks_fill (f : Facts) : KeepsMarks f.fill := by
  have hwords : ∀ word ∈ placeholderWords, CodePoint.scalar '"' ∉ word := by decide +kernel
  exact keepsMarks_foldl (forall_words hwords)

theorem forall_foldl (h : ∀ r ∈ rs, ∀ c ∈ r.2, p c)
    (hs : ∀ c ∈ s, p c) : ∀ c ∈ rs.foldl (fun s r => Text.replaceAll (placeholder r.1) r.2 s) s, p c := by
  induction rs generalizing s with
  | nil => exact hs
  | cons r rs ih =>
    obtain ⟨hr, hrs⟩ := forall_mem_cons.mp h
    refine ih hrs fun c hc => ?_
    rcases Text.mem_of_mem_replaceAll hc with hc | hc
    · exact hr c hc
    · exact hs c hc

/-- What holds of all characters of a text and of the facts holds of the filled text. -/
theorem forall_fill (h : ∀ r ∈ f.replacements, ∀ c ∈ r.2, p c) (hs : ∀ c ∈ s, p c) :
    ∀ c ∈ f.fill s, p c := forall_foldl h hs

variable (hplain : f.Plain) (hname : Script.isPluginName f.name = true)
include hplain hname

theorem Plain.encodable_fill (hs : Encodable s) : Encodable (f.fill s) :=
  forall_fill (fun r hr => (hplain.replacements hname r hr).encodable) hs

theorem Plain.isVerbatim_fill (hs : IsVerbatim s) : IsVerbatim (f.fill s) :=
  forall_fill (fun r hr => (hplain.replacements hname r hr).verbatim) hs

theorem Plain.isPlain_fill (hs : IsPlain s) : IsPlain (f.fill s) :=
  forall_fill (fun r hr c hc => .inl ((hplain.replacements hname r hr).verbatim c hc).1) hs

end Facts

/-! ### The manifests of the templates -/

/-- A text that is spelled out. A literal is such a text, and taking it for one saves the decoding of its bytes. -/
theorem ofString_ofList (cs : List Char) : Text.ofString (String.ofList cs) = cs.map .scalar := by
  rw [Text.ofString, String.toList_ofList]

def Kind.manifest : Kind → File
  | minimal => Minimal.manifest
  | action => Action.manifest
  | command => Command.manifest
  | full => Full.manifest
  | bridge => Bridge.manifest
  | advanced => Advanced.manifest

theorem Kind.manifest_mem (k : Kind) : k.manifest ∈ k.files := by
  cases k
  all_goals simp [manifest, files, Minimal.files, Action.files, Command.files, Full.files, Bridge.files, Advanced.files]

namespace Manifest

theorem integerText_one : Json.integerText 1 = .ok "1" := by
  have hone : (Value.int 1).literal? = some (Text.ofString "1") := by decide +kernel
  rw [Json.integerText, Value.literal, hone]

def one : Draft :=
  .scalar "1" (.int 1) (by decide)
    (fun level => @Json.readsTo_number _ level (.ofInt 1) (Json.Numeral.wellFormed_ofInt 1) fun _ => by decide +kernel)
    (Json.writable_scalar (congrArg some integerText_one) (encodable_ofString "1"))

def no : Draft :=
  .scalar "false" (.bool false) (by decide) (fun _ => Json.readsTo_word (by simp [Json.words]))
    (Json.writable_scalar rfl (encodable_ofString "false"))

def object (level : Nat) (fields : List (Text × Draft)) (hkeys : Draft.AreKeys (fields.map (·.1))) : Draft :=
  .object (Json.pretty.spacing level) (cons_ne_nil _ _) fields hkeys

def words (texts : List Text) : Draft :=
  .list ⟨[], " ", [], [], Json.isBlanks_nil, Json.isBlanks_space, Json.isBlanks_nil, Json.isBlanks_nil⟩
    (texts.map Draft.text)

theorem areKeys_component : Draft.AreKeys ["type", "name", "description"] := by decide +kernel

def component (type name description : Text) : Draft :=
  object 3 [("type", .text type), ("name", .text name), ("description", .text description)] areKeys_component

theorem areKeys_info : Draft.AreKeys ["is_built_in", "plugin_type", "components"] := by decide +kernel

def fields (description : Text) (links : List (Text × Draft)) (keywords categories : List Text) (components : Draft) :
    List (Text × Draft) :=
  ("manifest_version", one) ::
  ("name", .text "\x7b\x7bPLUGIN_DISPLAY_NAME\x7d\x7d") ::
  ("version", .text "\x7b\x7bPLUGIN_VERSION\x7d\x7d") ::
  ("description", .text description) ::
  ("author", object 1 [("name", .text "\x7b\x7bPLUGIN_AUTHOR\x7d\x7d")] (by decide +kernel)) ::
  ("license", .text "MIT") ::
  links.append [
    ("host_application", object 1 [("min_version", .text "0.8.0")] (by decide +kernel)),
    ("keywords", words keywords),
    ("categories", words categories),
    ("plugin_info", object 1 [("is_built_in", no), ("plugin_type", .text "general"), ("components", components)]
      areKeys_info)]

end Manifest

open Manifest in
def Kind.fields : Kind → List (Text × Draft)
  | minimal => Manifest.fields "\x7b\x7bPLUGIN_DESCRIPTION\x7d\x7d" [] [] ["Other"] (words [])
  | action =>
    Manifest.fields "\x7b\x7bPLUGIN_DESCRIPTION\x7d\x7d" [] ["action"] ["Entertainment & Interaction"]
      (.list (Json.pretty.spacing 2)
        [component "action" "\x7b\x7bPLUGIN_NAME\x7d\x7d_action" "\x7b\x7bPLUGIN_DESCRIPTION\x7d\x7d"])
  | command =>
    Manifest.fields "\x7b\x7bPLUGIN_DESCRIPTION\x7d\x7d" [] ["command"] ["Utility Tools"]
      (.list (Json.pretty.spacing 2)
        [component "command" "\x7b\x7bPLUGIN_NAME\x7d\x7d_command" "\x7b\x7bPLUGIN_DESCRIPTION\x7d\x7d"])
  | full =>
    Manifest.fields "\x7b\x7bPLUGIN_DESCRIPTION\x7d\x7d" [] ["full", "action", "command", "tool"] ["Other"]
      (.list (Json.pretty.spacing 2)
        [component "action" "\x7b\x7bPLUGIN_NAME\x7d\x7d_action" "\x7b\x7bPLUGIN_DESCRIPTION\x7d\x7d Action",
          component "command" "\x7b\x7bPLUGIN_NAME\x7d\x7d_command" "\x7b\x7bPLUGIN_DESCRIPTION\x7d\x7d Command",
          component "tool" "\x7b\x7bPLUGIN_NAME\x7d\x7d_tool" "\x7b\x7bPLUGIN_DESCRIPTION\x7d\x7d Tool"])
  | bridge => Manifest.fields "\x7b\x7bPLUGIN_DESCRIPTION\x7d\x7d" [] ["js", "javascript", "bridge"] ["Other"] (words [])
  | advanced =>
    Manifest.fields "使用高级 API 的麦麦插件（自定义提示词 + 回复注入）" [("homepage_url", .text ""), ("repository_url", .text "")]
      ["advanced", "custom-prompt", "reply-injection"] ["Other"]
      (.list (Json.pretty.spacing 2)
        [component "command" "\x7b\x7bPLUGIN_NAME\x7d\x7d_ask" "使用自定义提示词让麦麦回答问题",
          component "action" "\x7b\x7bPLUGIN_NAME\x7d\x7d_inject" "在正常回复中注入额外内容的演示 Action"])

theorem Kind.areKeys_fields (k : Kind) : Draft.AreKeys (k.fields.map (·.1)) := by
  cases k
  all_goals
    dsimp only [fields, Manifest.fields, List.append, List.map]
    repeat rw [ofString_ofList]
    decide +kernel

def Kind.draft (k : Kind) : Draft := Manifest.object 0 k.fields k.areKeys_fields

theorem Kind.manifest_text (k : Kind) : k.manifest.text = k.draft.render (fun s => s) ++ "\n" := by
  cases k
  all_goals
    dsimp only [manifest, Minimal.manifest, Action.manifest, Command.manifest, Full.manifest, Bridge.manifest,
      Advanced.manifest, File.ofLines, draft, fields, Manifest.fields, Manifest.object, Manifest.words,
      Manifest.component, Manifest.one, Manifest.no, Draft.object, Draft.list, Draft.text, Draft.scalar, Draft.entry,
      List.append, List.map]
    repeat rw [ofString_ofList]
    decide +kernel

theorem Kind.bodies_draft (k : Kind) : ∀ b ∈ k.draft.bodies, IsSimple b := by
  have hsimple : ∀ b ∈ k.draft.bodies, IsVerbatim b ∧ ∀ c ∈ b, c.isSurrogate = false := by
    cases k
    all_goals
      dsimp only [draft, fields, Manifest.fields, Manifest.object, Manifest.words, Manifest.component, Manifest.one,
        Manifest.no, Draft.object, Draft.list, Draft.text, Draft.scalar, List.append, List.map, List.flatMap]
      repeat rw [ofString_ofList]
      decide +kernel
  exact fun b hb => ⟨(hsimple b hb).1, (hsimple b hb).2⟩

theorem Kind.height_draft (k : Kind) : k.draft.height ≤ Json.usualLimits.depth := by
  cases k
  all_goals decide +kernel

theorem Kind.read_manifest (k : Kind) : Json.read k.manifest.text = .ok (k.draft.value fun s => s) := by
  rw [k.manifest_text]
  exact k.draft.read_fill .id (fun b hb => (k.bodies_draft b hb).verbatim) k.height_draft
    (forall_mem_singleton.mpr rfl)

/-! ### Files that are filled -/

def Facts.filled (f : Facts) (file : File) : Text := f.fill (Text.foldNewlines file.text)

/-- **The manifest of a template, filled with plain facts**, reads as the manifest with its texts filled. -/
theorem Facts.Plain.read_filled {f : Facts} (h : f.Plain) (hname : Script.isPluginName f.name = true) (k : Kind) :
    Json.read (Text.foldNewlines (f.filled k.manifest)) = .ok (k.draft.value f.fill) := by
  have hplain : IsPlain k.manifest.text := by
    cases k
    all_goals
      dsimp only [Kind.manifest, Minimal.manifest, Action.manifest, Command.manifest, Full.manifest, Bridge.manifest,
        Advanced.manifest, File.ofLines, List.map]
      repeat rw [ofString_ofList]
      decide +kernel
  rw [Facts.filled, Json.foldNewlines_of_isPlain hplain, Json.foldNewlines_of_isPlain (h.isPlain_fill hname hplain),
    k.manifest_text]
  exact k.draft.read_fill f.keepsMarks_fill (fun b hb => h.isVerbatim_fill hname (k.bodies_draft b hb).verbatim)
    k.height_draft (forall_mem_singleton.mpr rfl)

theorem File.encodable_ofLines (name : String) (lines : List String) : Encodable (File.ofLines name lines).text := by
  refine encodable_join (encodable_ofString "\n") ?_
  intro s hs
  obtain ⟨line, -, rfl⟩ := mem_map.mp hs
  exact encodable_ofString line

theorem Kind.encodable_files (k : Kind) : ∀ file ∈ k.files, Encodable file.text := by
  have hlines : ∀ file ∈ k.files, ∃ name lines, file = .ofLines name lines := by
    cases k
    all_goals
      simp only [files, Minimal.files, Action.files, Command.files, Full.files, Bridge.files, Advanced.files,
        forall_mem_cons, not_mem_nil, false_implies, implies_true, and_true]
      repeat' apply And.intro
      all_goals exact ⟨_, _, rfl⟩
  intro file hfile
  obtain ⟨name, lines, rfl⟩ := hlines file hfile
  exact File.encodable_ofLines name lines

theorem encodable_foldNewlines (h : Encodable s) : Encodable (Text.foldNewlines s) := by
  fun_induction Text.foldNewlines s with
  | case1 => exact h
  | case2 cs ih =>
    obtain ⟨-, hrest⟩ := forall_mem_cons.mp h
    exact .cons rfl (ih (forall_mem_cons.mp hrest).2)
  | case3 c cs _ ih =>
    obtain ⟨hc, hcs⟩ := forall_mem_cons.mp h
    refine .cons ?_ (ih hcs)
    split
    · rfl
    · exact hc

end PluginKit.Template
