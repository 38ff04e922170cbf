import PluginKit.Proofs.Package.Agreement

/-!
# Building again

A build into a directory that holds something already, perhaps an older build, is compared with a build of the same data
into a fresh directory of the same name (`build_rebuilds`). What it has written, it has written as if the directory had
been empty; what it does not write stays as it was. So a completed build leaves all its files, and possibly an older
note on a configuration that is gone; a build that ends early leaves those files that it had written until then.
-/

namespace PluginKit.Package

open Console Files List
open Value (str)

/-! ### What a build leaves -/

def leftBehind (t : Tree) (place : List Text) : List Text :=
  fileNames.filter fun name => (t.find? (place ++ [name])).isSome

theorem filter_of_sublist {l xs : List Text} {p : Text → Bool} (h : l.Sublist xs) (hnodup : xs.Nodup)
    (hp : ∀ a ∈ xs, p a = true ↔ a ∈ l) : xs.filter p = l := by
  induction h with
  | slnil => rfl
  | @cons l xs a hsub ih =>
    rw [nodup_cons] at hnodup
    obtain ⟨ha, hp⟩ := forall_mem_cons.mp hp
    have hnot : ¬ p a = true := fun hpa => hnodup.1 (hsub.subset (ha.mp hpa))
    rw [filter_cons_of_neg hnot]
    exact ih hnodup.2 hp
  | @cons_cons l xs a hsub ih =>
    rw [nodup_cons] at hnodup
    obtain ⟨ha, hp⟩ := forall_mem_cons.mp hp
    rw [filter_cons_of_pos (ha.mpr mem_cons_self)]
    refine congrArg (a :: ·) (ih hnodup.2 fun b hb => (hp b hb).trans ?_)
    have hne : b ≠ a := fun he => hnodup.1 (he ▸ hb)
    rw [mem_cons, or_iff_right hne]

/-- In a fresh directory stand exactly the files that the build has. -/
theorem Fresh.leftBehind_eq {w : Surroundings} {s made s' : Session} {out : Path} {place : List Text} {data : Value}
    {r : Except Stop Unit} (h : Fresh w s out made place) (hrun : Ran (buildInto out data) w s r s') :
    leftBehind s'.tree place = (build out.name data).files.map Prod.fst := by
  refine filter_of_sublist (names_build _ _) (by decide) fun name _ => ?_
  rw [h.tree_eq hrun]
  by_cases hname : name ∈ (build out.name data).files.map Prod.fst
  · obtain ⟨f, hf, rfl⟩ := mem_map.mp hname
    rw [Tree.find?_putFiles_of_mem hf nodup_build]
    exact iff_of_true rfl hname
  · have hother : ∀ f ∈ (build out.name data).files, place ++ [name] ≠ place ++ [f.1] := by
      intro f hf he
      have : name = f.1 := singleton_inj.mp (append_cancel_left he)
      exact hname (this ▸ mem_map_of_mem hf)
    rw [Tree.find?_putFiles_of_forall_ne hother, h.empty [name] (cons_ne_nil _ _)]
    exact iff_of_false nofun hname

/-! ### Two runs -/

/-- A run has changed a tree like this, compared with the tree that a run into a fresh directory has left: it has made
missing directories on the way, and then written the first of the files that were left there, with the same contents;
if it was done, all of them. Nothing else has changed. -/
def Rebuilt (base : List Text) (t : Tree) (out : Path) (t' fresh : Tree) (place₀ : List Text) (done : Prop) : Prop :=
  ∃ made place names, Tree.Made base t out made ∧ (names ≠ [] → made.LeadsTo base out place) ∧
    names <+: leftBehind fresh place₀ ∧ (done → names = leftBehind fresh place₀) ∧
    (∀ name ∈ names, t'.find? (place ++ [name]) = fresh.find? (place₀ ++ [name])) ∧
    ∀ q, (∀ name ∈ names, q ≠ place ++ [name]) → t'.find? q = made.find? q

theorem Rebuilt.refl {base : List Text} {t fresh : Tree} {out : Path} {place₀ : List Text} {done : Prop} (h : ¬ done) :
    Rebuilt base t out t fresh place₀ done :=
  ⟨t, [], [], .refl _ _ _, absurd rfl, nil_prefix, fun hdone => absurd hdone h, nofun, fun _ _ => rfl⟩

theorem Rebuilt.mono {base : List Text} {t t' fresh : Tree} {out : Path} {place₀ : List Text} {done done' : Prop}
    (h : Rebuilt base t out t' fresh place₀ done) (hdone : done' → done) : Rebuilt base t out t' fresh place₀ done' := by
  obtain ⟨made, place, names, hmade, hleads, hprefix, hall, hsame, hrest⟩ := h
  exact ⟨made, place, names, hmade, hleads, hprefix, fun h => hall (hdone h), hsame, hrest⟩

section
variable {w w₀ : Surroundings} {s s' s₀ s₀' made₀ : Session} {out out₀ : Path} {place₀ : List Text} {data : Value}
  {r₀ : Except Stop Unit}

theorem rebuilt_buildInto (hname : out₀.name = out.name) (hfresh : Fresh w₀ s₀ out₀ made₀ place₀)
    (hrun₀ : Ran (buildInto out₀ data) w₀ s₀ r₀ s₀') {r : Except Stop Unit} (hrun : Ran (buildInto out data) w s r s') :
    Rebuilt w.directory s.tree out s'.tree s₀'.tree place₀ (r = .ok ()) := by
  obtain ⟨made, k, hmade, ⟨place, hleads, htree⟩, hdone⟩ := ran_buildInto hrun
  have hleft := hfresh.leftBehind_eq hrun₀
  have htree₀ := hfresh.tree_eq hrun₀
  rw [hname] at hleft htree₀
  -- Both runs put the same files into their directories, this one perhaps only the first of them.
  have hsub : (build out.name data).files.take k <+: (build out.name data).files := take_prefix _ _
  refine ⟨made, place, ((build out.name data).files.take k).map Prod.fst, hmade, fun hne => hleads ?_, ?_, fun hr => ?_,
    fun name hmem => ?_, fun q hq => ?_⟩
  · exact fun hnil => hne (by rw [hnil]; rfl)
  · rw [hleft]
    exact hsub.map Prod.fst
  · rw [hleft, (hdone hr).1, take_length]
  · obtain ⟨f, hf, rfl⟩ := mem_map.mp hmem
    have hnodup : (((build out.name data).files.take k).map Prod.fst).Nodup :=
      (hsub.sublist.map Prod.fst).nodup nodup_build
    rw [htree, htree₀, Tree.find?_putFiles_of_mem hf hnodup, Tree.find?_putFiles_of_mem (hsub.subset hf) nodup_build]
  · rw [htree]
    exact Tree.find?_putFiles_of_forall_ne (fun f hf => hq f.1 (mem_map_of_mem hf)) _

theorem keepsTree_readScript (file : Path) : KeepsTree (readScript file) := by
  refine Looks.keepsTree ((looks_exists? file).bind fun found => ?_)
  split
  · exact (looks_readText file).bind fun _ => looks_read.bind fun _ => looks_lift _
  · exact looks_fail _

/-- **A build into any directory, compared with one into a fresh directory** of the same name, for plugin data and for
script files. A script that cannot be read changes nothing. -/
theorem build_rebuilds (hname : out₀.name = out.name) (hfresh : Fresh w₀ s₀ out₀ made₀ place₀)
    (hrun₀ : Ran (buildInto out₀ data) w₀ s₀ r₀ s₀') :
    (∀ r s', Ran (buildData out data) w s r s' →
      Rebuilt w.directory s.tree out s'.tree s₀'.tree place₀ (r = .ok ())) ∧
    ∀ file target r s', Ran (buildFile file target) w s r s' → target.getD (defaultDirectory file) = out →
      (∀ s₁, Completes (readScript file) w s data s₁ →
        Rebuilt w.directory s.tree out s'.tree s₀'.tree place₀ (r = .ok out)) ∧
      ((∀ v s₁, ¬ Completes (readScript file) w s v s₁) → s'.tree = s.tree ∧ ∀ p, r ≠ .ok p) := by
  constructor
  · intro r s' hrun
    rcases requireData_cases data with hnone | hdata
    · rw [buildData, hnone] at hrun
      cases hrun
      refine .refl fun hdone => ?_
      cases hdone
    · rw [buildData_eq hdata] at hrun
      exact rebuilt_buildInto hname hfresh hrun₀ hrun
  · rintro file target r s' hrun rfl
    rcases ran_bind hrun with ⟨v, s₁, hread, hrest⟩ | ⟨stop, rfl, hread⟩
    · refine ⟨fun s₂ hdata => ?_, fun hnot => absurd hread (hnot v s₁)⟩
      cases hread.symm.trans hdata
      rw [← keepsTree_readScript file _ _ _ _ hread]
      rcases ran_bind hrest with ⟨u, s₂, hbuild, hend⟩ | ⟨stop, rfl, hbuild⟩
      · cases hend
        exact (rebuilt_buildInto hname hfresh hrun₀ hbuild).mono fun _ => rfl
      · refine (rebuilt_buildInto hname hfresh hrun₀ hbuild).mono fun hdone => ?_
        cases hdone
    · refine ⟨fun s₁ hdata => ?_, fun _ => ⟨keepsTree_readScript file _ _ _ _ hread, fun p hp => ?_⟩⟩
      · cases hread.symm.trans hdata
      · cases hp

end

def datedData : Value := .record [("plugin", .record [("internal_name", str "p"), ("name", str "p"),
  ("description", str "d"), ("author", str "a"), ("version", str "1"), ("keywords", .list [.date ⟨2024, 1, 2⟩])])]

def withManifest : Session :=
  { Session.start .empty [] with
    tree := (Tree.empty.put ["out"] .directory).put ["out", manifestName] (.file (.text "old")) }

def textAt? (t : Tree) (place : List Text) : Option Text :=
  match t.find? place with
  | some (.file (.text s)) => some s
  | _ => none

theorem datedData_ran : ∃ stop s', Ran (buildData (topPath "out") datedData) emptyMachine withManifest (.error stop) s' ∧
    textAt? s'.tree ["out", manifestName] ≠ some "old" := by
  have hrun : (((buildData (topPath "out") datedData).run emptyMachine).run.run withManifest).1.isOk = false ∧
      textAt? (((buildData (topPath "out") datedData).run emptyMachine).run.run withManifest).2.tree
        ["out", manifestName] ≠ some "old" := by
    decide +kernel
  unfold Ran
  generalize ((buildData (topPath "out") datedData).run emptyMachine).run.run withManifest = result at hrun
  obtain ⟨r, s'⟩ := result
  cases r with
  | error stop => exact ⟨stop, s', rfl, hrun.2⟩
  | ok u => cases hrun.1

theorem datedData_rebuilds : ∃ stop s' r₀ s₀',
    Fresh emptyMachine (.start .empty []) (topPath "out") (withDirectory "out") ["out"] ∧
      Ran (buildInto (topPath "out") datedData) emptyMachine (.start .empty []) r₀ s₀' ∧
      Ran (buildData (topPath "out") datedData) emptyMachine withManifest (.error stop) s' ∧
      Rebuilt [] withManifest.tree (topPath "out") s'.tree s₀'.tree ["out"] ((.error stop : Except Stop Unit) = .ok ()) := by
  obtain ⟨stop, s', hrun, -⟩ := datedData_ran
  obtain ⟨r₀, s₀', hrun₀⟩ := exists_ran (buildInto (topPath "out") datedData) emptyMachine (.start .empty [])
  exact ⟨stop, s', r₀, s₀', fresh_out, hrun₀, hrun, (build_rebuilds rfl fresh_out hrun₀).1 _ _ hrun⟩

/-- A session on a machine with a note on an older configuration. -/
def withNote : Session :=
  { Session.start .empty [] with
    tree := (Tree.empty.put ["out"] .directory).put ["out", configNoteName] (.file (.text "old")) }

theorem ready_withNote : Ready emptyMachine withNote (topPath "out") withNote ["out"] := by
  refine ⟨rfl, rfl, rfl, by decide, fun n hn hdirectory => ?_⟩
  simp only [fileNames, mem_cons, not_mem_nil, or_false] at hn
  rcases hn with rfl | rfl | rfl | rfl <;> cases hdirectory

/-- Data without a configuration leave the place of the note as it was. -/
theorem plainData_note {s made : Session} (h : Ready emptyMachine s (topPath "out") made ["out"]) :
    ∃ s', Completes (buildData (topPath "out") plainData) emptyMachine s () s' ∧
      s'.tree.find? ["out", configNoteName] = made.tree.find? ["out", configNoteName] := by
  have hpath : Encodable (topPath "out").text := checkUtf8_eq_ok_iff.mp rfl
  have hsame := sameBuild_build (encodable_name hpath) (encodable_ofString "plugin_output") plainData
  have hfault : (build (topPath "out").name plainData).fault = none := hsame.fault.trans plainData_fault
  obtain ⟨s', hrun⟩ := h.completes hpath hfault
  refine ⟨s', hrun, ?_⟩
  rw [h.tree_eq hrun]
  refine Tree.find?_putFiles_of_forall_ne (fun f hf he => ?_) made.tree
  have hname : configNoteName = f.1 := singleton_inj.mp (List.cons.inj he).2
  obtain ⟨p, hp⟩ := parts_of_ok hfault
  rw [build, hp] at hf hfault
  have hmem : f.1 ∈ allNames p := names_of_ok hfault ▸ mem_map_of_mem hf
  cases hp
  rw [← hname] at hmem
  revert hmem
  decide

/-- A build that ends early has overwritten an older manifest, and a completed one leaves an older note that a fresh
directory would not have. -/
theorem older_files_matter :
    (textAt? withManifest.tree ["out", manifestName] = some "old" ∧
      ∃ stop s', Ran (buildData (topPath "out") datedData) emptyMachine withManifest (.error stop) s' ∧
        textAt? s'.tree ["out", manifestName] ≠ some "old") ∧
    ∃ s' s₀', Completes (buildData (topPath "out") plainData) emptyMachine withNote () s' ∧
      Completes (buildData (topPath "out") plainData) emptyMachine (.start .empty []) () s₀' ∧
      textAt? s'.tree ["out", configNoteName] = some "old" ∧ textAt? s₀'.tree ["out", configNoteName] = none := by
  refine ⟨⟨by decide, datedData_ran⟩, ?_⟩
  obtain ⟨s', hrun, hnote⟩ := plainData_note ready_withNote
  obtain ⟨s₀', hrun₀, hnote₀⟩ := plainData_note fresh_out.toReady
  refine ⟨s', s₀', hrun, hrun₀, ?_, ?_⟩
  · rw [textAt?, hnote]
    rfl
  · rw [textAt?, hnote₀]
    rfl

end PluginKit.Package
