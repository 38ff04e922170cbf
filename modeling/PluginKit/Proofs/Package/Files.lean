import PluginKit.Package.Disk
import PluginKit.Proofs.Console.Session
import PluginKit.Proofs.Json.Cut
import PluginKit.Proofs.Text.Encodable
import PluginKit.Proofs.Value.Outcome

/-!
# The files of a build

A build that no fault ended has written all of its files, with their whole texts (`build_ok`). If it was made into a
directory, the files stand there afterwards (`completes_buildInto`).
-/

namespace PluginKit.Package

open Console Files List
open Json (pretty emit)

variable {name : Text} {pieces written : List Text} {fault : Option Fault} {v : Value} {files : List (Text × Text)}

/-! ### Builds without a fault -/

theorem andThen_ok {a b : Build} (h : (a.andThen b).fault = none) :
    a.fault = none ∧ b.fault = none ∧ (a.andThen b).files = a.files ++ b.files := by
  unfold Build.andThen at h ⊢
  cases ha : a.fault with
  | some f =>
    rw [ha] at h
    rw [ha] at h
    cases h
  | none =>
    rw [ha] at h
    exact ⟨rfl, h, rfl⟩

theorem file_ok {text : Outcome Text} (h : (Build.file name text).fault = none) :
    ∃ s, text = .ok s ∧ (Build.file name text).files = [(name, s)] := by
  unfold Build.file at h ⊢
  cases text with
  | error f => cases h
  | ok s =>
    refine ⟨s, rfl, ?_⟩
    simp only at h ⊢
    split at h
    · rfl
    · cases h

theorem writablePieces_ok (h : writablePieces pieces fault = (written, none)) : written = pieces ∧ fault = none := by
  induction pieces generalizing written with
  | nil =>
    cases h
    exact ⟨rfl, rfl⟩
  | cons p pieces ih =>
    rw [writablePieces] at h
    split at h
    · cases h
    · cases hrest : writablePieces pieces fault with
      | mk rest f =>
        rw [hrest] at h
        cases h
        obtain ⟨rfl, hf⟩ := ih hrest
        exact ⟨rfl, hf⟩

theorem writablePieces_encodable (h : writablePieces pieces fault = (written, none)) : Encodable pieces.flatten := by
  induction pieces generalizing written with
  | nil => exact nofun
  | cons p pieces ih =>
    rw [writablePieces] at h
    split at h
    · cases h
    · next hp =>
      cases hrest : writablePieces pieces fault with | mk rest f =>
      rw [hrest] at h
      cases h
      rw [flatten_cons]
      exact Encodable.append (checkUtf8_eq_ok_iff.mp hp) (ih hrest)

theorem jsonFile_ok (h : (jsonFile name v).fault = none) :
    ∃ s, Json.write pretty v = .ok s ∧ (jsonFile name v).files = [(name, s)] := by
  have hwritten : writablePieces (emit pretty 0 [] v).pieces (emit pretty 0 [] v).fault
      = ((writablePieces (emit pretty 0 [] v).pieces (emit pretty 0 [] v).fault).1, none) :=
    Prod.ext rfl h
  obtain ⟨hpieces, hfault⟩ := writablePieces_ok hwritten
  refine ⟨(emit pretty 0 [] v).text, ?_, ?_⟩
  · rw [Json.write]
    simp only [hfault]
  · show [(name, List.flatten (writablePieces _ _).1)] = _
    rw [hpieces]
    rfl

theorem jsonFile_encodable (h : (jsonFile name v).fault = none) :
    (emit pretty 0 [] v).fault = none ∧ Encodable (emit pretty 0 [] v).text := by
  have hwritten : writablePieces (emit pretty 0 [] v).pieces (emit pretty 0 [] v).fault
      = ((writablePieces (emit pretty 0 [] v).pieces (emit pretty 0 [] v).fault).1, none) :=
    Prod.ext rfl h
  exact ⟨(writablePieces_ok hwritten).2, writablePieces_encodable hwritten⟩

theorem writablePieces_of_encodable (h : Encodable pieces.flatten) (fault : Option Fault) :
    writablePieces pieces fault = (pieces, fault) := by
  induction pieces with
  | nil => rfl
  | cons p pieces ih =>
    rw [flatten_cons] at h
    obtain ⟨hp, hpieces⟩ := forall_mem_append.mp h
    rw [writablePieces, checkUtf8_eq_ok_iff.mpr hp, ih hpieces]

theorem jsonFile_fault_eq_none (h : (emit pretty 0 [] v).fault = none)
    (hencodable : Encodable (emit pretty 0 [] v).text) : (jsonFile name v).fault = none := by
  show (writablePieces _ _).2 = none
  rw [writablePieces_of_encodable hencodable, h]

theorem writablePieces_fault {f : Fault}
    (h : writablePieces pieces fault = (written, some f)) : written <+: pieces ∧ (written = pieces → fault ≠ none) := by
  induction pieces generalizing written with
  | nil =>
    cases h
    exact ⟨prefix_rfl, fun _ => nofun⟩
  | cons p pieces ih =>
    rw [writablePieces] at h
    split at h
    · cases h
      exact .intro nil_prefix nofun
    · cases hrest : writablePieces pieces fault with
      | mk rest f' =>
        rw [hrest] at h
        cases h
        obtain ⟨hfirst, hfault⟩ := ih hrest
        exact ⟨cons_prefix_cons.mpr ⟨rfl, hfirst⟩, fun he => hfault (List.cons.inj he).2⟩

/-- A JSON file whose writing was ended by a fault holds a text that was cut off. -/
theorem jsonFile_cut (h : (jsonFile name v).fault ≠ none) :
    ∃ kept, (jsonFile name v).files = [(name, kept.flatten)] ∧ (emit pretty 0 [] v).IsCut kept := by
  obtain ⟨f, hf⟩ := Option.ne_none_iff_exists'.mp h
  exact ⟨_, rfl, writablePieces_fault (Prod.ext rfl hf)⟩

theorem jsonFileOf_ok {value : Outcome Value} (h : (jsonFileOf name value).fault = none) :
    ∃ v s, value = .ok v ∧ Json.write pretty v = .ok s ∧ (jsonFileOf name value).files = [(name, s)] := by
  cases value with
  | error f => cases h
  | ok v =>
    obtain ⟨s, hs, hfiles⟩ := jsonFile_ok h
    exact ⟨v, s, rfl, hs, hfiles⟩

def fileNames : List Text := [manifestName, moduleName, configNoteName, readmeName]

/-- **A build without a fault** has a manifest and a module, a note if there is a configuration, and a read-me file. -/
theorem build_ok {p : Parts} {directory : Text} (h : (p.build directory).fault = none) :
    ∃ v s m rest, manifest p.plugin p.commands p.actions = .ok v ∧ Json.write pretty v = .ok s ∧
      Module.ofValues p.plugin p.commands p.actions p.config = .ok m ∧
      (p.build directory).files = (manifestName, s) :: (moduleName, m.text) :: rest ∧
      rest.map Prod.fst = (if p.config.truthy then [configNoteName] else []) ++ [readmeName] := by
  obtain ⟨hmanifest, hrest, hfiles⟩ := andThen_ok h
  obtain ⟨hmodule, hrest, hfiles₁⟩ := andThen_ok hrest
  obtain ⟨hconfig, hreadme, hfiles₂⟩ := andThen_ok hrest
  obtain ⟨v, s, hv, hs, hmanifestFiles⟩ := jsonFileOf_ok hmanifest
  obtain ⟨text, htext, hmoduleFiles⟩ := file_ok hmodule
  obtain ⟨m, hm, rfl⟩ := Value.map_eq_ok.mp htext
  obtain ⟨note, -, hreadmeFiles⟩ := file_ok hreadme
  rw [hmanifestFiles, hfiles₁, hmoduleFiles, hfiles₂, hreadmeFiles, singleton_append, singleton_append]
    at hfiles
  refine ⟨v, s, m, _, hv, hs, hm, hfiles, ?_⟩
  rw [map_append]
  split
  · next hc =>
    rw [if_pos hc] at hconfig
    obtain ⟨text, -, hnote⟩ := file_ok hconfig
    rw [hnote]
    rfl
  · rfl

/-! ### Names of files -/

theorem names_andThen {a b : Build} {xs ys : List Text} (ha : (a.files.map Prod.fst).Sublist xs)
    (hb : (b.files.map Prod.fst).Sublist ys) : ((a.andThen b).files.map Prod.fst).Sublist (xs ++ ys) := by
  unfold Build.andThen
  split
  · exact ha.trans (sublist_append_left xs ys)
  · rw [map_append]
    exact ha.append hb

theorem names_file (name : Text) (text : Outcome Text) : ((Build.file name text).files.map Prod.fst).Sublist [name] := by
  unfold Build.file
  split
  · exact nil_sublist _
  · split
    · exact List.Sublist.refl _
    · exact List.Sublist.refl _

theorem names_jsonFileOf (name : Text) (value : Outcome Value) :
    ((jsonFileOf name value).files.map Prod.fst).Sublist [name] := by
  cases value with
  | error f => exact nil_sublist _
  | ok v => exact List.Sublist.refl _

/-- A build writes no files but those four, each at most once and in this order. -/
theorem names_build (directory : Text) (data : Value) :
    ((build directory data).files.map Prod.fst).Sublist fileNames := by
  unfold build
  split
  · exact nil_sublist _
  · next p _ =>
    have hnote : ((if p.config.truthy then Build.file configNoteName (configNote p.config) else .empty).files.map
        Prod.fst).Sublist [configNoteName] := by
      split
      · exact names_file _ _
      · exact nil_sublist _
    exact names_andThen (names_jsonFileOf _ _) (names_andThen (names_file _ _) (names_andThen hnote (names_file _ _)))

/-! ### Files on the disk -/

theorem plainPart_fileNames : ∀ name ∈ fileNames, Tree.PlainPart name := by
  simp only [fileNames, forall_mem_cons]
  exact ⟨⟨by decide, by decide⟩, ⟨by decide, by decide⟩, ⟨by decide, by decide⟩, ⟨by decide, by decide⟩, nofun⟩

section
variable {w : Surroundings} {s s' : Session} {u : Unit} {directory : Path}

theorem Holds.writeFiles {text : Text} (hn : Tree.PlainPart name)
    (hplain : ∀ f ∈ files, Tree.PlainPart f.1) (hne : name ∉ files.map Prod.fst)
    (hold : Holds w s.tree (directory.child name) text)
    (h : Completes (writeFiles directory files) w s u s') : Holds w s'.tree (directory.child name) text := by
  induction files generalizing s with
  | nil =>
    rw [← (completes_pure_iff.mp h).2]
    exact hold
  | cons f files ih =>
    obtain ⟨v, s₁, hfirst, hrest⟩ := completes_bind_iff.mp h
    rw [map_cons, mem_cons, not_or] at hne
    have hother := hplain f mem_cons_self
    exact ih (fun g hg => hplain g (mem_cons_of_mem _ hg)) hne.2 (hold.writeFile hn hother hne.1 hfirst) hrest

/-- **Files that were written stand there**, if their names are different. -/
theorem holds_writeFiles (hplain : ∀ f ∈ files, Tree.PlainPart f.1)
    (hnodup : (files.map Prod.fst).Nodup) (h : Completes (writeFiles directory files) w s u s') :
    ∀ f ∈ files, Holds w s'.tree (directory.child f.1) f.2 := by
  induction files generalizing s with
  | nil => exact nofun
  | cons f files ih =>
    obtain ⟨v, s₁, hfirst, hrest⟩ := completes_bind_iff.mp h
    rw [map_cons, nodup_cons] at hnodup
    have hothers : ∀ g ∈ files, Tree.PlainPart g.1 := fun g hg => hplain g (mem_cons_of_mem _ hg)
    refine forall_mem_cons.mpr ⟨?_, ih hothers hnodup.2 hrest⟩
    exact Holds.writeFiles (hplain f mem_cons_self) hothers hnodup.1 (holds_writeFile hfirst) hrest

/-- **A build into a directory** that is completed leaves the manifest and the module there. -/
theorem completes_buildInto {data : Value} (h : Completes (buildInto directory data) w s u s') :
    ∃ p v text m, Parts.ofValue data = .ok p ∧ manifest p.plugin p.commands p.actions = .ok v ∧
      Json.write pretty v = .ok text ∧ Module.ofValues p.plugin p.commands p.actions p.config = .ok m ∧
      Holds w s'.tree (directory.child manifestName) text ∧ Holds w s'.tree (directory.child moduleName) m.text := by
  obtain ⟨_, s₁, -, h₁⟩ := completes_bind_iff.mp h
  obtain ⟨p, s₂, hparts, h₂⟩ := completes_bind_iff.mp h₁
  obtain ⟨hp, -⟩ := completes_lift_iff.mp hparts
  obtain ⟨_, s₃, hwrite, h₃⟩ := completes_bind_iff.mp h₂
  obtain ⟨lines, s₄, hreport, hsay⟩ := completes_bind_iff.mp h₃
  obtain ⟨-, hs₄⟩ := completes_lift_iff.mp hreport
  obtain ⟨_, s₅, hfiles, hfault⟩ := completes_bind_iff.mp hwrite
  have htree : s'.tree = s₃.tree := by rw [completes_sayAll hsay, ← hs₄]
  cases hf : (p.build directory.name).fault with
  | some f =>
    rw [hf] at hfault
    exact absurd hfault not_completes_fail
  | none =>
    rw [hf] at hfault
    obtain ⟨-, hs₅⟩ := completes_pure_iff.mp hfault
    obtain ⟨v, text, m, rest, hv, htext, hm, hall, -⟩ := build_ok hf
    have hsub := names_build directory.name data
    rw [build, hp] at hsub
    have hplain : ∀ f ∈ (p.build directory.name).files, Tree.PlainPart f.1 :=
      fun f hf => plainPart_fileNames _ (hsub.subset (mem_map_of_mem hf))
    have hheld := holds_writeFiles hplain (hsub.nodup (by decide)) hfiles
    rw [hs₅, ← htree] at hheld
    refine ⟨p, v, text, m, hp, hv, htext, hm, hheld (manifestName, text) ?_, hheld (moduleName, m.text) ?_⟩
    · rw [hall]
      exact mem_cons_self
    · rw [hall]
      exact mem_cons_of_mem _ mem_cons_self

end

end PluginKit.Package
