import PluginKit.Proofs.Check.Examined
import PluginKit.Proofs.Package.Consistent
import PluginKit.Proofs.Package.Directory
import PluginKit.Proofs.Package.Found

/-!
# Built plugins and their check

The manifest of a built plugin reads back as the record that was written, and the check looks at it field by field. It
finds nothing wrong with the manifest exactly if the script gives no empty version, author or description and names only
categories that exist (`validates_iff`); neither is asked for when the script is read.
-/

namespace PluginKit

open List
open Json (pretty emit reread)

variable {s : Text} {entries : List (Value × Value)} {p : PluginInfo}

/-! ### Shown values -/

namespace Value

theorem write_ne_nil (style : Decimal.Style) (hnan : style.nan ≠ []) (hinfinity : style.infinity ≠ []) (x : Float) :
    style.write x ≠ [] := by
  cases hx : (Decimal.Binary64.ofFloat x).isFinite with
  | true =>
    obtain ⟨n, hn, htext, -⟩ := Decimal.write_eq_text style hx
    obtain ⟨c, cs, hwhole, -⟩ := hn.whole_cons
    rw [htext, Json.Numeral.text, hwhole]
    simp
  | false =>
    unfold Decimal.Style.write
    cases hb : Decimal.Binary64.ofFloat x with
    | nan => exact hnan
    | infinite negative => exact fun h => hinfinity (append_eq_nil_iff.mp h).2
    | finite negative significand exponent =>
      rw [hb] at hx
      cases hx

theorem integer?_ne_nil {n : Int} (h : integer? n = some s) : s ≠ [] := by
  unfold integer? at h
  split at h
  · rw [← Option.some.inj h, Json.ofString_toString_int]
    intro hnil
    exact Nat.toDigits_ne_nil (map_eq_nil_iff.mp (append_eq_nil_iff.mp hnil).2)
  · cases h

theorem ellipsis_ne_nil (k : Kind) : ellipsis k ≠ [] := by
  cases k <;> decide

theorem literalIn_ne_nil : ∀ (v : Value) (around : List (Nat × Kind)) (s : Text), literalIn around v = some s → s ≠ []
  | .loop mark body => by
    intro around s h
    rw [literalIn] at h
    split at h
    · rw [← Option.some.inj h]
      exact ellipsis_ne_nil _
    · exact literalIn_ne_nil body _ s h
  | .again mark => by
    intro around s h
    rw [literalIn] at h
    rw [← Option.some.inj h]
    exact ellipsis_ne_nil _
  | .int n => by
    intro around s h
    rw [literalIn] at h
    exact integer?_ne_nil h
  | .float x => by
    intro around s h
    rw [literalIn] at h
    rw [← Option.some.inj h]
    exact write_ne_nil floatStyle (by decide) (by decide) x
  | .null | .bool true | .bool false | .str _ | .bytes _ | .date _ | .datetime _ | .tuple [] | .set [] => by
    intro around s h
    rw [literalIn] at h
    rw [← Option.some.inj h]
    simp [Text.ofString, Text.quoted, Text.quotedBytes, Date.literal, DateTime.literal]
  | .list _ | .tuple [_] | .tuple (_ :: _ :: _) | .set (_ :: _) | .dict _ => by
    intro around s h
    rw [literalIn] at h
    · simp only [Option.pure_def, Option.bind_eq_bind, Option.bind_eq_some_iff] at h
      obtain ⟨t, -, ht⟩ := h
      rw [← Option.some.inj ht]
      simp [Text.ofString]
    all_goals simp

/-- What is shown of a value that counts as present is not empty. -/
theorem display_ne_nil {v : Value} (hv : v.truthy = true) (h : v.display = .ok s) : s ≠ [] := by
  have hshown : v.display? = some s := by
    unfold display at h
    split at h
    · next hs =>
      cases h
      exact hs
    · cases h
  unfold display? at hshown
  split at hshown
  · rw [← Option.some.inj hshown]
    exact Check.truthy_str.mp hv
  · rw [← Option.some.inj hshown]
    simp [Date.iso, Text.ofString]
  · rw [← Option.some.inj hshown]
    simp [DateTime.iso, Date.iso, Text.ofString]
  · exact literalIn_ne_nil v [] s hshown

end Value

/-! ### Written records -/

namespace Json

theorem reread_record {fields : List (String × Value)} (h : (fields.map Prod.fst).Nodup) :
    reread (.record fields) = .record (fields.map fun f => (f.1, reread f.2)) := by
  have hrecord (fields : List (String × Value)) :
      Value.record fields = .dict (Value.named (fields.map fun f => (Text.ofString f.1, f.2))) := by
    rw [Value.record, Value.named, map_map]
    rfl
  have hnodup : ((fields.map fun f => (Text.ofString f.1, f.2)).map (·.1)).Nodup := by
    have hinj : Function.Injective Text.ofString := fun s t hst => by
      by_contra hne
      exact Value.ofString_ne hne hst
    have hkeys := h.map hinj
    rw [map_map] at hkeys ⊢
    exact hkeys
  rw [hrecord, hrecord, reread_named hnodup, map_map, map_map]
  rfl

section
variable {layout : Layout} {level : Nat} {around : List Nat}

theorem encodable_of_quoteText (h : Encodable (quoteText false s)) : Encodable s := by
  intro c hc
  by_contra hne
  have hsurrogate : c.isSurrogate = true := by simpa using hne
  have hmem : c ∈ quoteText false s := by
    refine mem_append_left _ (mem_append_right _ (mem_flatMap.mpr ⟨c, hc, ?_⟩))
    rw [escapeChar_of_isSurrogate hsurrogate]
    exact mem_singleton_self c
  exact hne (h c hmem)

theorem encodable_emitEntries {first : Bool}
    (h : (emitEntries layout level around first entries).fault = none)
    (he : Encodable (emitEntries layout level around first entries).text) :
    ∀ e ∈ entries, (emit layout level around e.2).fault = none ∧ Encodable (emit layout level around e.2).text := by
  induction entries generalizing first with
  | nil =>
    intro e hmem
    cases hmem
  | cons e entries ih =>
    obtain ⟨k, v⟩ := e
    obtain ⟨key, -, hv, hrest, htext⟩ := emitEntries_cons h
    rw [htext] at he
    obtain ⟨hfirst, hmore⟩ := forall_mem_append.mp he
    refine forall_mem_cons.mpr ⟨⟨hv, ?_⟩, ih hrest hmore⟩
    exact (forall_mem_append.mp (forall_mem_append.mp hfirst).2).2

theorem encodable_emitDict (h : (emit layout level around (.dict entries)).fault = none)
    (he : Encodable (emit layout level around (.dict entries)).text) :
    ∀ e ∈ entries, (emit layout (level + 1) around e.2).fault = none ∧ Encodable (emit layout (level + 1) around e.2).text := by
  cases entries with
  | nil =>
    intro e hmem
    cases hmem
  | cons e entries =>
    rw [emit] at h he
    · obtain ⟨hopen, hafter⟩ := Emission.andThen_fault h
      obtain ⟨hentries, -⟩ := Emission.andThen_fault hafter
      rw [Emission.andThen_text hopen, Emission.andThen_text hentries] at he
      exact encodable_emitEntries hentries (forall_mem_append.mp (forall_mem_append.mp he).2).1
    all_goals exact cons_ne_nil e entries

theorem encodable_emitStr (hl : layout.ascii = false) (he : Encodable (emit layout level around (.str s)).text) :
    Encodable s := by
  rw [emit_scalar (s := quoteText layout.ascii s) rfl, Emission.piece_text, hl] at he
  exact encodable_of_quoteText he

end

end Json

namespace Package

open Console Files Script
open Value (str ok_bind bind_eq_ok)

/-! ### Written manifests -/

def manifestFields (p : PluginInfo) (components : List Value) : List (String × Value) := [
  ("manifest_version", .int 1),
  ("name", str p.name),
  ("version", str p.version),
  ("description", str p.description),
  ("author", .record [("name", str p.author)]),
  ("license", str "MIT"),
  ("host_application", Check.usualHost),
  ("keywords", p.keywords),
  ("categories", p.categories),
  ("plugin_info", .record [("is_built_in", .bool false), ("plugin_type", str "general"),
    ("components", .list components)])]

theorem manifest_eq_record {commands actions m : Value} (h : manifest p.toValue commands actions = .ok m) :
    ∃ components, m = .record (manifestFields p components) := by
  have hitem (key : String) {v : Value} (hkey : List.lookup key [("name", str p.name),
      ("internal_name", str p.internalName), ("version", str p.version), ("author", str p.author),
      ("description", str p.description), ("categories", p.categories), ("keywords", p.keywords)] = some v) :
      p.toValue.item key = .ok v := Value.item_record hkey
  have hget (key : String) (default : Value) : p.toValue.get key default = .ok ((List.lookup key [("name", str p.name),
      ("internal_name", str p.internalName), ("version", str p.version), ("author", str p.author),
      ("description", str p.description), ("categories", p.categories), ("keywords", p.keywords)]).getD default) :=
    Value.get_record _ _ _
  obtain ⟨components, -, h⟩ := bind_eq_ok.mp h
  rw [hitem "name" rfl, ok_bind, hitem "version" rfl, ok_bind, hitem "description" rfl, ok_bind,
    hitem "author" rfl, ok_bind, hget "keywords", ok_bind, hget "categories", ok_bind] at h
  exact ⟨components, (Except.ok.inj h).symm⟩

theorem reread_manifest (p : PluginInfo) (components : List Value) :
    ∃ fields, reread (.record (manifestFields p components)) = .record fields ∧
      Check.HasFields fields p.name p.version p.description p.author (reread p.categories) := by
  refine ⟨_, Json.reread_record (by simp [manifestFields]), ?_⟩
  have hauthor : reread (.record [("name", str p.author)]) = .record [("name", str p.author)] := by
    rw [Json.reread_record (by simp)]
    simp [reread]
  have hhost : reread Check.usualHost = Check.usualHost := by
    rw [Check.usualHost, Json.reread_record (by decide)]
    simp [reread]
  constructor
  all_goals simp [manifestFields, reread, lookup_cons, hauthor, hhost]

theorem holds_manifest {d : Definition} {out : Path} {w : Surroundings} {s s' : Session}
    (h : Completes (buildInto out d.toValue) w s () s') :
    ∃ m, manifest (partsOf d).plugin (partsOf d).commands (partsOf d).actions = .ok m ∧
      (emit pretty 0 [] m).fault = none ∧ Encodable (emit pretty 0 [] m).text ∧
      Holds w s'.tree (out.child manifestName) (emit pretty 0 [] m).text := by
  obtain ⟨p, m, text, -, hp, hm, htext, -, hold, -⟩ := completes_buildInto h
  rw [parts_toValue, Except.ok.injEq] at hp
  subst hp
  obtain ⟨t, k, -, -, hend⟩ := ran_buildInto h
  obtain ⟨-, hfault⟩ := hend rfl
  rw [build, parts_toValue] at hfault
  obtain ⟨hfile, -, -⟩ := andThen_ok hfault
  rw [hm] at hfile
  obtain ⟨hemit, hencodable⟩ := jsonFile_encodable hfile
  have hsame : text = (emit pretty 0 [] m).text := by
    rw [Json.write] at htext
    simp only [hemit, Except.ok.injEq] at htext
    exact htext.symm
  rw [hsame] at hold
  exact ⟨m, hm, hemit, hencodable, hold⟩

theorem encodable_texts {components : List Value}
    (h : (emit pretty 0 [] (.record (manifestFields p components))).fault = none)
    (he : Encodable (emit pretty 0 [] (.record (manifestFields p components))).text) :
    Encodable p.name ∧ Encodable p.version ∧ Encodable p.description ∧ Encodable p.author := by
  have hfield (key : String) {v : Value} (hmem : (key, v) ∈ manifestFields p components) :
      (emit pretty 1 [] v).fault = none ∧ Encodable (emit pretty 1 [] v).text :=
    Json.encodable_emitDict h he (str key, v) (mem_map_of_mem hmem)
  have htext (key : String) {t : Text} (hmem : (key, str t) ∈ manifestFields p components) : Encodable t :=
    Json.encodable_emitStr rfl (hfield key hmem).2
  obtain ⟨hauthor, hauthor'⟩ := hfield "author" (v := .record [("name", str p.author)]) (by simp [manifestFields])
  have hname := Json.encodable_emitDict hauthor hauthor' (str "name", str p.author) (mem_singleton_self _)
  exact ⟨htext "name" (by simp [manifestFields]), htext "version" (by simp [manifestFields]),
    htext "description" (by simp [manifestFields]), Json.encodable_emitStr rfl hname.2⟩

theorem name_ne_nil {source : Text} {v : Value} {d : Definition} (h : Definition.ofValue source v = .ok d) :
    d.plugin.name ≠ [] := by
  obtain ⟨entries, plugin, commands, actions, -, -, hplugin, -⟩ := ofValue_ok h
  unfold PluginInfo.ofEntries at hplugin
  split at hplugin
  · cases hplugin
  · next nameValue hname =>
    have htruthy : nameValue.truthy = true := (Option.filter_eq_some_iff.mp hname).2
    obtain ⟨name, hdisplay, hrest⟩ := bind_eq_ok.mp hplugin
    obtain ⟨version, -, hrest⟩ := bind_eq_ok.mp hrest
    obtain ⟨author, -, hrest⟩ := bind_eq_ok.mp hrest
    obtain ⟨description, -, hrest⟩ := bind_eq_ok.mp hrest
    rw [← Except.ok.inj hrest]
    exact Value.display_ne_nil htruthy hdisplay

/-! ### The check -/

/-- What the check of a manifest asks of the plugin of a script. -/
structure Accepted (p : PluginInfo) : Prop where
  version : p.version ≠ []
  author : p.author ≠ []
  description : p.description ≠ []
  categories : Check.CategoriesExist (reread p.categories)

theorem isPlain_emit {v : Value} (h : (emit pretty 0 [] v).fault = none) :
    Json.IsPlain (emit pretty 0 [] v).text :=
  (@Json.rereads_emit pretty Json.usualLimits rfl (Nat.le_refl _) v 0 [] 0 h).plain

section
variable {source : Text} {v m : Value} {d : Definition}

theorem depth_le_of_passes (hemit : (emit pretty 0 [] m).fault = none) {r r' : Check.Report}
    (h : Check.Passes (Check.checkManifestText (emit pretty 0 [] m).text) r () r') :
    Json.depth m ≤ Json.usualLimits.depth := by
  by_contra hlt
  obtain ⟨collection, hread⟩ := (Json.read_emit rfl hemit).2 (Nat.lt_of_not_le hlt)
  unfold Check.checkManifestText at h
  rw [hread] at h
  cases h

/-- The check of the text of a manifest decides what the script says about the plugin. -/
theorem decides_accepted (all : Bool) (hd : Definition.ofValue source v = .ok d)
    (hm : manifest (partsOf d).plugin (partsOf d).commands (partsOf d).actions = .ok m)
    (hemit : (emit pretty 0 [] m).fault = none) :
    Check.Decides all (Check.checkManifestText (emit pretty 0 [] m).text) (Accepted d.plugin) := by
  intro r r' hpass
  have hread := (Json.read_emit rfl hemit).1 (depth_le_of_passes hemit hpass)
  obtain ⟨components, rfl⟩ := manifest_eq_record hm
  obtain ⟨fields, hfields, hhas⟩ := reread_manifest d.plugin components
  refine ((Check.decides_manifestText _).congr ?_) r r' hpass
  rw [hread, hfields]
  simp only [Value.record, Except.ok.injEq, Value.dict.injEq, exists_eq_left', Check.sound_record_iff hhas]
  constructor
  · rintro ⟨⟨-, hversion, hdescription⟩, hauthor, hcategories⟩
    exact ⟨hversion, hauthor, hdescription, hcategories⟩
  · rintro ⟨hversion, hauthor, hdescription, hcategories⟩
    exact ⟨⟨name_ne_nil hd, hversion, hdescription⟩, hauthor, hcategories⟩

theorem examinable_manifestText (hm : manifest (partsOf d).plugin (partsOf d).commands (partsOf d).actions = .ok m)
    (hemit : (emit pretty 0 [] m).fault = none) (hencodable : Encodable (emit pretty 0 [] m).text)
    (ha : Accepted d.plugin) (hle : Json.depth m ≤ Json.usualLimits.depth) :
    Check.ExaminableText (emit pretty 0 [] m).text := by
  have hread := (Json.read_emit rfl hemit).1 hle
  obtain ⟨components, rfl⟩ := manifest_eq_record hm
  obtain ⟨fields, hfields, hhas⟩ := reread_manifest d.plugin components
  obtain ⟨hname, hversion, hdescription, hauthor⟩ := encodable_texts hemit hencodable
  rw [hfields] at hread
  exact .inr ⟨_, hread, Check.presentable_record hhas hname hversion hdescription hauthor ha.categories⟩

end

/-- **What the check finds in the manifest of a built script.** The check of the manifest is completed without a problem
exactly if the script gives a version, an author and a description that are not empty, if all its categories exist, and
if the manifest is not too deep to be read; and whenever the check of the whole directory is completed, it has found a
problem of the manifest exactly if one of the former fails. -/
theorem validates_iff {yamlInstalled : Bool} {source text : Text} {data : Value} {out : Path} {w : Surroundings}
    {s s' : Session} (hparse : Script.parse yamlInstalled source text = .ok data)
    (hbuild : Completes (buildInto out data) w s () s') :
    ∃ d m, Definition.ofText source text = .ok d ∧ data = d.toValue ∧
      manifest (partsOf d).plugin (partsOf d).commands (partsOf d).actions = .ok m ∧
      (∀ r, (∃ r' s'', Completes (Check.checkManifestFile out r) w s' r' s'' ∧ r'.problems = r.problems) ↔
        Accepted d.plugin ∧ Json.depth m ≤ Json.usualLimits.depth) ∧
      ∀ r s'', Completes (Check.checkDirectory out) w s' r s'' →
        ((∀ p ∈ r.problems, p.isAboutManifest = false) ↔ Accepted d.plugin) := by
  unfold Script.parse at hparse
  split at hparse
  · obtain ⟨d, hd, rfl⟩ := Value.map_eq_ok.mp hparse
    have hvalue : ∃ v, Definition.ofValue source v = .ok d := by
      unfold Definition.ofText at hd
      split at hd
      · cases hd
      · cases hd
      · split at hd
        · exact ⟨_, hd⟩
        · cases hd
    obtain ⟨v, hv⟩ := hvalue
    obtain ⟨m, hm, hemit, hencodable, hold⟩ := holds_manifest hbuild
    have hfold := Json.foldNewlines_of_isPlain (isPlain_emit hemit)
    have hreads := (completes_readText_iff.mp hold.completes_readText).1
    rw [hfold] at hreads
    have hdecides := fun all => decides_accepted all hv hm hemit
    refine ⟨d, m, hd, rfl, hm, fun r => ⟨?_, ?_⟩, fun r s'' hcheck => ?_⟩
    · rintro ⟨r', s'', hcheck, hproblems⟩
      obtain ⟨hpass, -⟩ := (Check.completes_checkManifestFile_iff hreads).mp ⟨s'', hcheck⟩
      exact ⟨((hdecides true).problems_eq_iff hpass).mp hproblems, depth_le_of_passes hemit hpass⟩
    · rintro ⟨ha, hle⟩
      have hneeds := Check.needs_manifestText (emit pretty 0 [] m).text
      obtain ⟨e, hpass, he⟩ := (hneeds.passes_iff { r with lines := [] }).mpr
        (examinable_manifestText hm hemit hencodable ha hle)
      obtain ⟨s'', hcheck⟩ := (Check.completes_checkManifestFile_iff hreads).mpr ⟨hpass, he.lines⟩
      exact ⟨_, s'', hcheck, ((hdecides true).problems_eq_iff hpass).mpr ha⟩
    · have hmanifest (t : Text) (ht : Reads w s'.tree (out.child manifestName) t) :
          Check.Decides false (Check.checkManifestText t) (Accepted d.plugin) := by
        rw [ht.unique hreads]
        exact hdecides false
      have hfound := Check.finds_checkDirectory hmanifest (fun hvacant => absurd hreads.occupied hvacant) hcheck
      refine hfound.2.trans ⟨?_, fun ha => ⟨⟨nofun, ha⟩, nofun⟩⟩
      rintro ⟨⟨-, ha⟩, -⟩
      exact ha
  · cases hparse

/-- A script is read, built into a new directory and checked there, and the report passes a test. -/
def reported (text : Text) (test : Check.Report → Bool) : Bool :=
  match Script.parse true "<string>" text with
  | .error _ => false
  | .ok data =>
    match ((buildInto ⟨"", ["out"]⟩ data).run emptyMachine).run.run (.start .empty []) with
    | (.error _, _) => false
    | (.ok _, s) =>
      match ((Check.checkDirectory ⟨"", ["out"]⟩).run emptyMachine).run.run s with
      | (.error _, _) => false
      | (.ok r, _) => test r

theorem exists_of_reported {text : Text} {test : Check.Report → Bool} (h : reported text test = true) :
    ∃ data s r s', Script.parse true "<string>" text = .ok data ∧
      Completes (buildInto ⟨"", ["out"]⟩ data) emptyMachine (.start .empty []) () s ∧
      Completes (Check.checkDirectory ⟨"", ["out"]⟩) emptyMachine s r s' ∧ test r = true := by
  unfold reported at h
  split at h
  · cases h
  · next data hdata =>
    split at h
    · cases h
    · next s hs =>
      split at h
      · cases h
      · next r s' hr => exact ⟨data, s, r, s', hdata, hs, hr, h⟩

/-- A script that says nothing but a name is accepted. -/
theorem plainScript_accepted : ∃ data s r s' d, Script.parse true "<string>" "plugin:\n  name: p\n" = .ok data ∧
    Completes (buildInto ⟨"", ["out"]⟩ data) emptyMachine (.start .empty []) () s ∧
    Completes (Check.checkDirectory ⟨"", ["out"]⟩) emptyMachine s r s' ∧ r.problems = [] ∧
    Definition.ofText "<string>" "plugin:\n  name: p\n" = .ok d ∧ Accepted d.plugin := by
  have hreported : reported "plugin:\n  name: p\n" (fun r => r.problems.isEmpty) = true := by decide +kernel
  obtain ⟨data, s, r, s', hparse, hbuild, hcheck, hempty⟩ := exists_of_reported hreported
  have hnone : r.problems = [] := List.isEmpty_iff.mp hempty
  obtain ⟨d, m, hd, -, -, -, hwhole⟩ := validates_iff hparse hbuild
  refine ⟨data, s, r, s', d, hparse, hbuild, hcheck, hnone, hd, (hwhole r s' hcheck).mp ?_⟩
  rw [hnone]
  exact fun p hp => by cases hp

/-- A category that does not exist is found only by the check. -/
theorem strangeCategory_reported : ∃ data s r s',
    Script.parse true "<string>" "plugin:\n  name: p\n  categories: [Foo]\n" = .ok data ∧
    Completes (buildInto ⟨"", ["out"]⟩ data) emptyMachine (.start .empty []) () s ∧
    Completes (Check.checkDirectory ⟨"", ["out"]⟩) emptyMachine s r s' ∧
    r.problems = [Check.Problem.badCategory "Foo"] := by
  have hreported : reported "plugin:\n  name: p\n  categories: [Foo]\n"
      (fun r => r.problems == [Check.Problem.badCategory "Foo"]) = true := by decide +kernel
  obtain ⟨data, s, r, s', hparse, hbuild, hcheck, hproblems⟩ := exists_of_reported hreported
  exact ⟨data, s, r, s', hparse, hbuild, hcheck, beq_iff_eq.mp hproblems⟩

end Package

end PluginKit
