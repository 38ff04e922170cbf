import PluginKit.Proofs.Json.Denoted
import PluginKit.Proofs.Package.Files
import PluginKit.Proofs.Template.Filled

/-!
# Manifests that are updated

After its placeholders are filled, the manifest of a new plugin is read, the facts are put into it, and it is written
again. If it cannot be read it stays as it is; if it cannot be written to its end, only a part of it is left. It says
what was asked for, under the keys of the template, exactly if it could be read, updated and written and filling
neither added a key nor lost one (`says_refreshed_iff`). This is so for all plain facts (`Plain.updates`).
-/

namespace PluginKit.Template

open List
open Value (str named setField)
open Json (Denoted)

variable {fields author : List (Text × Value)} {room : Nat} {name : Text}

/-- The value has the keys of the manifest of a template, in their order. -/
def Kind.SameKeys (k : Kind) (v : Value) : Prop :=
  ∃ entries entries', Json.read k.manifest.text = .ok (.dict entries) ∧ v = .dict entries' ∧
    entries'.map Prod.fst = entries.map Prod.fst

/-- A manifest says what is known of a plugin, under the keys of the template. -/
structure Says (k : Kind) (f : Facts) (v : Value) : Prop where
  keys : k.SameKeys v
  name : v.item "name" = .ok (str f.displayName)
  version : v.item "version" = .ok (str f.version)
  description : v.item "description" = .ok (str f.description)
  author : ∃ author, v.item "author" = .ok author ∧ author.item "name" = .ok (str f.author)

namespace Facts

variable {f : Facts}

/-! ### Updates -/

/-- The fields of a manifest with the name, the version and the description set. -/
def given (f : Facts) (fields : List (Text × Value)) : List (Text × Value) :=
  setField "description" (str f.description) (setField "version" (str f.version)
    (setField "name" (str f.displayName) fields))

/-- The fields with the author set too, inside the fields that are kept of the author. -/
def updated (f : Facts) (author fields : List (Text × Value)) : List (Text × Value) :=
  setField "author" (.dict (named (setField "name" (str f.author) author))) (f.given fields)

theorem lookup_given (key : Text) (fields : List (Text × Value)) :
    (f.given fields).lookup key = if key = "description" then some (str f.description)
      else if key = "version" then some (str f.version)
      else if key = "name" then some (str f.displayName) else fields.lookup key := by
  rw [given, Value.lookup_setField, Value.lookup_setField, Value.lookup_setField]

theorem mem_given {e : Text × Value} (h : e ∈ f.given fields) :
    e ∈ fields ∨ ∃ s ∈ [f.description, f.version, f.displayName], e.2 = str s := by
  rcases Value.mem_setField h with h | rfl
  · rcases Value.mem_setField h with h | rfl
    · rcases Value.mem_setField h with h | rfl
      · exact .inl h
      · exact .inr ⟨f.displayName, by simp, rfl⟩
    · exact .inr ⟨f.version, by simp, rfl⟩
  · exact .inr ⟨f.description, by simp, rfl⟩

theorem nodup_given (h : (fields.map (·.1)).Nodup) : ((f.given fields).map (·.1)).Nodup :=
  Value.nodup_setField (Value.nodup_setField (Value.nodup_setField h _ _) _ _) _ _

theorem authorField_of_lookup {v : Value} (h : fields.lookup (Text.ofString "author") = some v) :
    authorField (.dict (named fields)) = .ok (if v.kind = .dict then v else .dict []) := by
  rw [authorField, Value.holds_named, h]
  show (do let author ← Value.item (.dict (named fields)) "author"; _) = _
  rw [Value.item_named h]
  rfl

theorem exists_authorField (h : ∀ e ∈ fields, Denoted (room + 1) e.2) :
    ∃ author, (author.map (·.1)).Nodup ∧ (∀ e ∈ author, Denoted room e.2) ∧
      authorField (.dict (named fields)) = .ok (.dict (named author)) := by
  have hnone : ∀ e ∈ ([] : List (Text × Value)), Denoted room e.2 := by
    intro e he
    cases he
  cases hlookup : fields.lookup (Text.ofString "author") with
  | none =>
    refine ⟨[], nodup_nil, hnone, ?_⟩
    rw [authorField, Value.holds_named, hlookup]
    rfl
  | some v =>
    rw [authorField_of_lookup hlookup]
    cases h _ (Value.mem_of_lookup hlookup) with
    | @scalar _ v hv =>
      refine ⟨[], nodup_nil, hnone, ?_⟩
      cases v with
      | list | tuple | dict | loop | again | bytes | date | datetime | set => cases hv
      | null | bool | int | float | str => rfl
    | list _ => exact ⟨[], nodup_nil, hnone, rfl⟩
    | @dict _ inner hnodup hinner => exact ⟨inner, hnodup, hinner, rfl⟩

/-- The update of a manifest sets four fields and keeps the others. -/
theorem update_of_authorField (h : authorField (.dict (named (f.given fields))) = .ok (.dict (named author))) :
    f.update (.dict (named fields)) = .ok (.dict (named (f.updated author fields))) := by
  simp only [update, Value.setItem_named, bind, Except.bind]
  rw [← given, h]
  simp only [Value.setItem_named]
  rfl

theorem denoted_given (h : ∀ e ∈ fields, Denoted room e.2) : ∀ e ∈ f.given fields, Denoted room e.2 := by
  intro e he
  rcases mem_given he with he | ⟨s, -, hs⟩
  · exact h e he
  · rw [hs]
    exact .scalar rfl rfl

theorem exists_update (h : ∀ e ∈ fields, Denoted (room + 1) e.2) :
    ∃ author, (author.map (·.1)).Nodup ∧ (∀ e ∈ author, Denoted room e.2) ∧
      f.update (.dict (named fields)) = .ok (.dict (named (f.updated author fields))) := by
  obtain ⟨author, hnodup, hauthor, hfield⟩ := exists_authorField (denoted_given (f := f) h)
  exact ⟨author, hnodup, hauthor, update_of_authorField hfield⟩

theorem exists_fields_of_update {v u : Value} (h : Denoted (room + 1) v) (hu : f.update v = .ok u) :
    ∃ fields, v = .dict (named fields) ∧ (fields.map (·.1)).Nodup ∧ ∀ e ∈ fields, Denoted room e.2 := by
  cases h with
  | @scalar _ v hv =>
    cases v with
    | list | tuple | dict | loop | again | bytes | date | datetime | set => cases hv
    | null | bool | int | float | str => cases hu
  | list _ => cases hu
  | @dict _ fields hnodup hfields => exact ⟨fields, rfl, hnodup, hfields⟩

/-- **A manifest that was read and updated** is made of what can be read, and its keys are different. -/
theorem exists_updated {v u : Value} (h : Denoted (room + 2) v) (hu : f.update v = .ok u) :
    ∃ author fields, u = .dict (named (f.updated author fields)) ∧ ((f.updated author fields).map (·.1)).Nodup ∧
      ((setField "name" (str f.author) author).map (·.1)).Nodup ∧ Denoted (room + 2) u := by
  obtain ⟨fields, rfl, hnodup, hfields⟩ := exists_fields_of_update h hu
  obtain ⟨author, hauthorNodup, hauthor, hupdate⟩ := exists_update (f := f) hfields
  rw [hupdate] at hu
  cases hu
  have hname := Value.nodup_setField hauthorNodup "name" (str f.author)
  have hupdated : ((f.updated author fields).map (·.1)).Nodup := Value.nodup_setField (nodup_given hnodup) _ _
  refine ⟨author, fields, rfl, hupdated, hname, .dict hupdated fun e he => ?_⟩
  rcases Value.mem_setField he with he | rfl
  · exact denoted_given hfields e he
  · refine .dict hname fun e he => ?_
    rcases Value.mem_setField he with he | rfl
    · exact hauthor e he
    · exact .scalar rfl rfl

theorem lookup_updated (key : Text) (author fields : List (Text × Value)) :
    (f.updated author fields).lookup key = if key = "author"
      then some (.dict (named (setField "name" (str f.author) author))) else (f.given fields).lookup key :=
  Value.lookup_setField _ _ _ _

/-! ### Updated manifests, read again -/

theorem lookup_map_reread {key : Text} {v : Value} (h : fields.lookup key = some v) :
    (fields.map fun e => (e.1, Json.reread e.2)).lookup key = some (Json.reread v) := by
  induction fields with
  | nil => cases h
  | cons e fields ih =>
    obtain ⟨k, w⟩ := e
    rw [lookup_cons] at h
    rw [map_cons, lookup_cons]
    by_cases hk : key = k
    · subst hk
      rw [beq_self_eq_true] at h ⊢
      cases h
      rfl
    · rw [beq_eq_false_iff_ne.mpr hk] at h ⊢
      exact ih h

theorem reread_str (s : Text) : Json.reread (str s) = str s := by
  rw [Json.reread]
  all_goals simp

/-- An updated manifest that is read again says what is known, if its keys are those of the template. -/
theorem says_reread_iff {k : Kind}
    (hnodup : ((f.updated author fields).map (·.1)).Nodup)
    (hauthor : ((setField "name" (str f.author) author).map (·.1)).Nodup) :
    Says k f (Json.reread (.dict (named (f.updated author fields)))) ↔ k.SameKeys (.dict (named (f.updated author fields))) := by
  have hkeys : (named ((f.updated author fields).map fun e => (e.1, Json.reread e.2))).map Prod.fst
      = (named (f.updated author fields)).map Prod.fst := by
    simp only [named, map_map]
    rfl
  rw [Json.reread_named hnodup]
  constructor
  · intro h
    obtain ⟨entries, entries', hread, hentries, hsame⟩ := h.keys
    cases hentries
    exact ⟨entries, _, hread, rfl, hkeys.symm.trans hsame⟩
  · rintro ⟨entries, entries', hread, hentries, hsame⟩
    cases hentries
    have hfound {key s : Text} (h : (f.updated author fields).lookup key = some (str s)) :
        (Value.dict (named ((f.updated author fields).map fun e => (e.1, Json.reread e.2)))).item key = .ok (str s) := by
      have hlookup := lookup_map_reread h
      rw [reread_str] at hlookup
      exact Value.item_named hlookup
    refine ⟨⟨entries, _, hread, rfl, hkeys.trans hsame⟩, hfound ?_, hfound ?_, hfound ?_, ?_⟩
    · rw [lookup_updated, if_neg (by decide), lookup_given, if_neg (by decide), if_neg (by decide), if_pos rfl]
    · rw [lookup_updated, if_neg (by decide), lookup_given, if_neg (by decide), if_pos rfl]
    · rw [lookup_updated, if_neg (by decide), lookup_given, if_pos rfl]
    · refine ⟨_, Value.item_named (lookup_map_reread ((lookup_updated _ _ _).trans (if_pos rfl))), ?_⟩
      rw [Json.reread_named hauthor]
      have hlookup : (setField "name" (str f.author) author).lookup (Text.ofString "name") = some (str f.author) := by
        rw [Value.lookup_setField, if_pos rfl]
      have hname := lookup_map_reread hlookup
      rw [reread_str] at hname
      exact Value.item_named hname

/-- What is written for a manifest that was read, if it can be read as JSON and updated. -/
def rewritten? (f : Facts) (text : Text) : Option Text :=
  match Json.read text with
  | .error _ => none
  | .ok v =>
    match f.update v with
    | .error _ => none
    | .ok u => some (List.flatten ((Package.jsonFile Package.manifestName u).files.map (·.2)))

/-- What is left of a manifest after it was updated, with all that can go wrong. -/
def refreshed (f : Facts) (text : Text) : Text := (f.rewritten? (Text.foldNewlines text)).getD text

section
variable {text : Text} {v u : Value}

theorem refreshed_of_read_error {e : Json.ReadFailure} (h : Json.read (Text.foldNewlines text) = .error e) :
    f.refreshed text = text := by
  rw [refreshed, rewritten?, h]
  rfl

theorem refreshed_of_update_error {e : Fault} (h : Json.read (Text.foldNewlines text) = .ok v) (hu : f.update v = .error e) :
    f.refreshed text = text := by
  rw [refreshed, rewritten?, h]
  simp only [hu]
  rfl

theorem refreshed_of_update (h : Json.read (Text.foldNewlines text) = .ok v) (hu : f.update v = .ok u) :
    f.refreshed text = List.flatten ((Package.jsonFile Package.manifestName u).files.map (·.2)) := by
  rw [refreshed, rewritten?, h]
  simp only [hu]
  rfl

end

theorem read_jsonFile {u : Value} (hu : Denoted Json.usualLimits.depth u)
    (h : (Package.jsonFile name u).fault = none) :
    Json.read (Text.foldNewlines (List.flatten ((Package.jsonFile name u).files.map (·.2)))) = .ok (Json.reread u) := by
  obtain ⟨s, hwrite, hfiles⟩ := Package.jsonFile_ok h
  have hemit := (Package.jsonFile_encodable h).1
  have hs : s = (Json.emit Json.pretty 0 [] u).text := by
    rw [Json.write] at hwrite
    simp only [hemit] at hwrite
    exact (Except.ok.inj hwrite).symm
  have hplain : Json.IsPlain (Json.emit Json.pretty 0 [] u).text := Json.isPlain_emit_text rfl u 0 []
  rw [hfiles, map_cons, map_nil, flatten_singleton, hs, Json.foldNewlines_of_isPlain hplain]
  exact (Json.read_emit rfl hemit).1 hu.depth_le

theorem read_jsonFile_of_fault {u : Value} (h : (Package.jsonFile name u).fault ≠ none) :
    ∃ e, Json.read (Text.foldNewlines (List.flatten ((Package.jsonFile name u).files.map (·.2)))) = .error e := by
  obtain ⟨kept, hfiles, hcut⟩ := Package.jsonFile_cut h
  have hplain : Json.IsPlain kept.flatten := hcut.isPlain rfl
  rw [hfiles, map_cons, map_nil, flatten_singleton, Json.foldNewlines_of_isPlain hplain]
  exact Json.read_cut rfl hcut

/-- **What a manifest says after its update.** -/
theorem says_refreshed_iff {k : Kind} {text : Text} :
    (∃ v, Json.read (Text.foldNewlines (f.refreshed text)) = .ok v ∧ Says k f v) ↔
      ∃ v u, Json.read (Text.foldNewlines text) = .ok v ∧ f.update v = .ok u ∧ k.SameKeys u ∧
        (Package.jsonFile Package.manifestName u).fault = none := by
  cases hread : Json.read (Text.foldNewlines text) with
  | error e =>
    rw [refreshed_of_read_error hread, hread]
    refine iff_of_false ?_ ?_
    · rintro ⟨v, hv, -⟩
      cases hv
    · rintro ⟨v, u, hv, -⟩
      cases hv
  | ok v =>
    cases hupdate : f.update v with
    | error e =>
      rw [refreshed_of_update_error hread hupdate, hread]
      refine iff_of_false ?_ ?_
      · rintro ⟨v', hv', htells⟩
        cases hv'
        obtain ⟨entries, entries', -, rfl, -⟩ := htells.keys
        obtain ⟨u, hu⟩ : ∃ u, f.update (.dict entries') = .ok u := by
          have hdenoted : Denoted (983 + 2) (.dict entries') := Json.denoted_of_read hread
          cases hdenoted with
          | scalar h => cases h
          | dict _ hfields =>
            obtain ⟨author, -, -, hu⟩ := exists_update (f := f) hfields
            exact ⟨_, hu⟩
        rw [hupdate] at hu
        cases hu
      · rintro ⟨v', u, hv', hu, -⟩
        cases hv'
        rw [hupdate] at hu
        cases hu
    | ok u =>
      obtain ⟨author, fields, rfl, hnodup, hauthor, hdenoted⟩ :=
        @exists_updated 983 f v u (Json.denoted_of_read hread) hupdate
      rw [refreshed_of_update hread hupdate]
      by_cases hfault : (Package.jsonFile Package.manifestName (.dict (named (f.updated author fields)))).fault = none
      · rw [read_jsonFile hdenoted hfault]
        constructor
        · rintro ⟨v', hv', htells⟩
          cases hv'
          exact ⟨v, _, rfl, hupdate, (says_reread_iff hnodup hauthor).mp htells, hfault⟩
        · rintro ⟨v', u, hv', hu, hkeys, -⟩
          cases hv'
          rw [hupdate] at hu
          cases hu
          exact ⟨_, rfl, (says_reread_iff hnodup hauthor).mpr hkeys⟩
      · obtain ⟨e, he⟩ := read_jsonFile_of_fault hfault
        rw [he]
        refine iff_of_false ?_ ?_
        · rintro ⟨v', hv', -⟩
          cases hv'
        · rintro ⟨v', u, hv', hu, -, hnone⟩
          cases hv'
          rw [hupdate] at hu
          cases hu
          exact hfault hnone

/-! ### Plain facts -/

/-- The fields of the manifest of a template, after a change of its texts. -/
def filledFields (k : Kind) (φ : Text → Text) : List (Text × Value) := k.fields.map fun e => (e.1, e.2.value φ)

theorem keys_filledFields (k : Kind) (φ : Text → Text) : (filledFields k φ).map (·.1) = k.fields.map (·.1) :=
  map_map

theorem mem_keys (k : Kind) : ∀ key ∈ [Text.ofString "name", "version", "description", "author"],
    key ∈ k.fields.map (·.1) := by
  cases k
  all_goals decide +kernel

theorem lookup_author (k : Kind) (φ : Text → Text) : (filledFields k φ).lookup (Text.ofString "author")
    = some (.dict (named [("name", str (φ "\x7b\x7bPLUGIN_AUTHOR\x7d\x7d"))])) := by
  cases k
  all_goals rfl

theorem keys_updated {keys : List Text} (hkeys : fields.map (·.1) = keys)
    (h : ∀ key ∈ [Text.ofString "name", "version", "description", "author"], key ∈ keys) :
    (f.updated author fields).map (·.1) = keys := by
  have hset {key : Text} {v : Value} {fields : List (Text × Value)} (hkeys : fields.map (·.1) = keys) (hkey : key ∈ keys) :
      (setField key v fields).map (·.1) = keys := by
    rw [Value.keys_setField, hkeys, if_pos hkey]
  exact hset (hset (hset (hset hkeys (h _ (by simp))) (h _ (by simp))) (h _ (by simp))) (h _ (by simp))

theorem writable_filledFields (hplain : f.Plain) (hname : Script.isPluginName f.name = true) (k : Kind) :
    ∀ e ∈ filledFields k f.fill, Json.Writable e.2 := by
  intro e he
  obtain ⟨d, hd, rfl⟩ := mem_map.mp he
  refine d.2.writes fun b hb => hplain.encodable_fill hname (k.bodies_draft b ?_).encodable
  exact mem_flatMap.mpr ⟨d, hd, hb⟩

/-- **Plain facts** give a manifest that can be read, updated and written, with the keys of the template. -/
theorem Plain.updates (h : f.Plain) (hname : Script.isPluginName f.name = true) (k : Kind) :
    ∃ v u, Json.read (Text.foldNewlines (f.filled k.manifest)) = .ok v ∧ f.update v = .ok u ∧ k.SameKeys u ∧
      (Package.jsonFile Package.manifestName u).fault = none := by
  have hauthor : authorField (.dict (named (f.given (filledFields k f.fill))))
      = .ok (.dict (named [("name", str (f.fill "\x7b\x7bPLUGIN_AUTHOR\x7d\x7d"))])) := by
    have hlookup : (f.given (filledFields k f.fill)).lookup (Text.ofString "author")
        = some (.dict (named [("name", str (f.fill "\x7b\x7bPLUGIN_AUTHOR\x7d\x7d"))])) := by
      rw [lookup_given, if_neg (by decide), if_neg (by decide), if_neg (by decide), lookup_author]
    rw [authorField_of_lookup hlookup]
    rfl
  have hkeys := @keys_updated _ [("name", str (f.fill "\x7b\x7bPLUGIN_AUTHOR\x7d\x7d"))] f _
    (keys_filledFields k f.fill) (mem_keys k)
  have hupdate := update_of_authorField hauthor
  refine ⟨_, _, h.read_filled hname k, hupdate, ⟨_, _, k.read_manifest, rfl, ?_⟩, ?_⟩
  · have hnames (fields : List (Text × Value)) : (named fields).map Prod.fst = (fields.map (·.1)).map str := by
      rw [named, map_map, map_map]
      rfl
    rw [hnames, hnames, hkeys]
    exact congrArg (List.map str) (keys_filledFields k _).symm
  · have hall := h.all_name hname
    have hwritable : Json.Writable (.dict (named (f.updated [("name", str (f.fill "\x7b\x7bPLUGIN_AUTHOR\x7d\x7d"))]
        (filledFields k f.fill)))) := by
      refine Json.writable_dict fun e he => ⟨?_, ?_⟩
      · have hmem : e.1 ∈ k.fields.map (·.1) := by
          rw [← hkeys]
          exact mem_map_of_mem he
        exact (k.areKeys_fields.isKey _ hmem).encodable
      · rcases Value.mem_setField he with he | rfl
        · rcases mem_given he with he | ⟨s, hs, hstr⟩
          · exact writable_filledFields h hname k e he
          · rw [hstr]
            refine Json.writable_str ?_
            simp only [mem_cons, not_mem_nil, or_false] at hs
            rcases hs with rfl | rfl | rfl
            · exact h.description.encodable
            · exact h.version.encodable
            · exact (isSimple_of_all (caseClosed_isTitleChar.all_displayName hall rfl)).encodable
        · refine @Json.writable_dict [("name", str f.author)] ?_
          exact forall_mem_singleton.mpr ⟨encodable_ofString "name", Json.writable_str h.author.encodable⟩
    exact Package.jsonFile_fault_eq_none (hwritable 0 []).1 (hwritable 0 []).2

end Facts

end PluginKit.Template
