import PluginKit.Proofs.Console.Runs
import PluginKit.Proofs.Package.Files

/-!
# Builds into directories

Whatever a build finds in its directory and however it ends, it has made missing directories on the way, and then
written some of its files, from the first on (`ran_buildInto`). If nothing is in the way of a file, then the build writes
all files that it has (`Ready.tree_eq`).
-/

namespace PluginKit.Package

open Console Files List

/-! ### Names of files -/

section
variable {directory : Text} {data : Value} {f : Text × Text}

theorem mem_fileNames_of_mem_build (hf : f ∈ (build directory data).files) : f.1 ∈ fileNames :=
  (names_build directory data).subset (mem_map_of_mem hf)

theorem parts_of_ok (h : (build directory data).fault = none) : ∃ p, Parts.ofValue data = .ok p := by
  cases hparts : Parts.ofValue data with
  | ok p => exact ⟨p, rfl⟩
  | error f =>
    rw [build, hparts] at h
    cases h

theorem nodup_build : ((build directory data).files.map Prod.fst).Nodup :=
  (names_build directory data).nodup (by decide)

end

theorem byteSize_fileNames : ∀ name ∈ fileNames, byteSize name ≤ greatestName := by decide

/-! ### Any run -/

/-- Files were put one after another into the directory that a path leads to. -/
def Wrote (base : List Text) (t : Tree) (out : Path) (files : List (Text × Text)) (t' : Tree) : Prop :=
  ∃ place, (files ≠ [] → t.LeadsTo base out place) ∧ t' = Tree.putFiles place files t

theorem Wrote.nil (base : List Text) (t : Tree) (out : Path) : Wrote base t out [] t := ⟨[], absurd rfl, rfl⟩

section
variable {w : Surroundings} {s s' : Session} {out : Path} {r : Except Stop Unit}

theorem ran_writeFiles {files : List (Text × Text)} (hplain : ∀ f ∈ files, Tree.PlainPart f.1)
    (h : Ran (writeFiles out files) w s r s') :
    ∃ k, Wrote w.directory s.tree out (files.take k) s'.tree ∧ (r = .ok () → k = files.length) := by
  induction files generalizing s with
  | nil =>
    rw [keepsTree_pure _ _ _ _ _ h]
    exact ⟨0, .nil _ _ _, fun _ => rfl⟩
  | cons f files ih =>
    obtain ⟨hf, hfiles⟩ := forall_mem_cons.mp hplain
    rcases ran_bind h with ⟨u, s₁, hfirst, hrest⟩ | ⟨stop, rfl, hfirst⟩
    · obtain ⟨q, hq, hfree, rfl⟩ := completes_writeFile hfirst
      obtain ⟨place, hplace, rfl⟩ := Tree.locate_child hf hq
      obtain ⟨k, ⟨place', hleads, htree⟩, hk⟩ := ih hfiles hrest
      refine ⟨k + 1, ⟨place, fun _ => hplace, ?_⟩, fun hr => by rw [hk hr, length_cons]⟩
      -- The path leads to the same place as before the first file, unless that was the last.
      rw [take_succ_cons, Tree.putFiles, htree]
      by_cases hnil : files.take k = []
      · rw [hnil]
        rfl
      · rw [(hleads hnil).unique (Tree.LeadsTo.put hplace hfree)]
    · refine ⟨0, ?_, fun hr => by cases hr⟩
      rcases ran_writeFile hfirst with ⟨-, hok⟩ | ⟨-, htree⟩
      · cases hok
      · rw [htree]
        exact .nil _ _ _

theorem ran_write {b : Build} (hplain : ∀ f ∈ b.files, Tree.PlainPart f.1) (h : Ran (b.write out) w s r s') :
    ∃ k, Wrote w.directory s.tree out (b.files.take k) s'.tree ∧
      (r = .ok () → k = b.files.length ∧ b.fault = none) := by
  rcases ran_bind h with ⟨u, s₁, hfiles, hend⟩ | ⟨stop, rfl, hfiles⟩
  · obtain ⟨k, hwrote, hk⟩ := ran_writeFiles hplain hfiles
    split at hend
    · cases hend
      exact ⟨k, hwrote, nofun⟩
    · next hfault =>
      cases hend
      exact ⟨k, hwrote, fun _ => ⟨hk rfl, hfault⟩⟩
  · obtain ⟨k, hwrote, -⟩ := ran_writeFiles hplain hfiles
    exact ⟨k, hwrote, nofun⟩

/-- **However a build into a directory ends**, directories were made, and then its first files written; all of them if
it was completed. -/
theorem ran_buildInto {data : Value} (h : Ran (buildInto out data) w s r s') :
    ∃ t k, Tree.Made w.directory s.tree out t ∧ Wrote w.directory t out ((build out.name data).files.take k) s'.tree ∧
      (r = .ok () → k = (build out.name data).files.length ∧ (build out.name data).fault = none) := by
  rcases ran_bind h with ⟨u, s₁, hmake, h₁⟩ | ⟨stop, rfl, hmake⟩
  · have hmade := made_ensureDirectories hmake
    rcases ran_bind h₁ with ⟨p, s₂, hparts, h₂⟩ | ⟨stop, rfl, hparts⟩
    · obtain ⟨hp, rfl⟩ := completes_lift_iff.mp hparts
      have hbuild : build out.name data = p.build out.name := by rw [build, hp]
      have hplain : ∀ f ∈ (p.build out.name).files, Tree.PlainPart f.1 := by
        rw [← hbuild]
        exact fun f hf => plainPart_fileNames _ (mem_fileNames_of_mem_build hf)
      rw [hbuild]
      rcases ran_bind h₂ with ⟨_, s₃, hwrite, h₃⟩ | ⟨stop, rfl, hwrite⟩
      · obtain ⟨k, hwrote, hk⟩ := ran_write hplain hwrite
        have htree : s'.tree = s₃.tree :=
          ((keepsTree_lift _).bind fun lines => keepsTree_sayAll lines) _ _ _ _ h₃
        exact ⟨s₁.tree, k, hmade, htree ▸ hwrote, fun _ => hk rfl⟩
      · obtain ⟨k, hwrote, -⟩ := ran_write hplain hwrite
        exact ⟨s₁.tree, k, hmade, hwrote, fun hr => by cases hr⟩
    · rw [keepsTree_lift _ _ _ _ _ hparts]
      exact ⟨s₁.tree, 0, hmade, .nil _ _ _, fun hr => by cases hr⟩
  · exact ⟨s'.tree, 0, made_ensureDirectories hmake, .nil _ _ _, fun hr => by cases hr⟩

end

/-! ### Ready and fresh directories -/

/-- The path leads to a directory that is there or can be made, and neither a directory nor the length of a path is in
the way of a file of a build. -/
structure Ready (w : Surroundings) (s : Session) (out : Path) (made : Session) (place : List Text) : Prop where
  makes : Completes (Session.ensureDirectories out) w s () made
  leads : made.tree.LeadsTo w.directory out place
  directory : made.tree.find? place = some .directory
  room : ∀ name ∈ fileNames, pathObstacle? (out.child name) = none
  free : ∀ name ∈ fileNames, made.tree.find? (place ++ [name]) ≠ some .directory

/-- In addition nothing is in the directory. -/
structure Fresh (w : Surroundings) (s : Session) (out : Path) (made : Session) (place : List Text) : Prop extends
    Ready w s out made place where
  empty : ∀ rest, rest ≠ [] → made.tree.find? (place ++ rest) = none

/-- A directory that is not there yet, in one that is there, is fresh. -/
theorem fresh_of_missing {w : Surroundings} {s : Session} {parent : Path} {place : List Text} {name : Text}
    (hback : name ≠ Path.back) (hsize : byteSize name ≤ greatestName)
    (hpath : pathObstacle? ⟨parent.root, parent.parts ++ [name]⟩ = none)
    (hroom : ∀ n ∈ fileNames, pathObstacle? ((⟨parent.root, parent.parts ++ [name]⟩ : Path).child n) = none)
    (hleads : s.tree.LeadsTo w.directory parent place) (hplace : s.tree.find? place = some .directory)
    (hmissing : ∀ rest, s.tree.find? (place ++ name :: rest) = none) :
    Fresh w s ⟨parent.root, parent.parts ++ [name]⟩ { s with tree := s.tree.put (place ++ [name]) .directory }
      (place ++ [name]) := by
  have hpathLeads : s.tree.LeadsTo w.directory ⟨parent.root, parent.parts ++ [name]⟩ (place ++ [name]) := by
    unfold Tree.LeadsTo at hleads ⊢
    rw [Tree.follow_concat]
    rw [Path.isAbsolute] at hleads ⊢
    rw [hleads]
    exact Tree.step_of_directory hback hsize hplace
  have hlocate : s.tree.locate w.directory ⟨parent.root, parent.parts ++ [name]⟩ = .ok (place ++ [name]) := by
    rw [Tree.locate, hpath]
    exact hpathLeads
  have hfree : s.tree.find? (place ++ [name]) ≠ some .directory := by
    rw [hmissing []]
    intro h
    cases h
  have hensure : Completes (Session.ensureDirectory ⟨parent.root, parent.parts ++ [name]⟩) w s ()
      { s with tree := s.tree.put (place ++ [name]) .directory } := by
    refine Completes.bind (completes_locate_of hlocate) (Completes.bind (completes_get_iff.mpr ⟨rfl, rfl⟩) ?_)
    rw [hmissing []]
    rfl
  have hempty : ∀ rest, rest ≠ [] →
      (s.tree.put (place ++ [name]) .directory).find? (place ++ [name] ++ rest) = none := by
    intro rest hrest
    rw [Tree.find?_put_of_ne (by simpa using hrest), append_assoc]
    exact hmissing rest
  refine ⟨⟨?_, hpathLeads.put hfree, Tree.find?_put_self (by simp) _ _, hroom, fun n _ hn => ?_⟩, hempty⟩
  · unfold Session.ensureDirectories
    rw [reverse_append, reverse_singleton, singleton_append, Session.ensureFrom]
    refine Completes.bind (completes_locate?_iff.mpr ⟨rfl, rfl⟩) ?_
    rw [reverse_cons, reverse_reverse, hlocate]
    exact hensure
  · cases (hempty [n] (cons_ne_nil _ _)).symm.trans hn

theorem completes_writeFiles_of {w : Surroundings} {s : Session} {out : Path} {place : List Text}
    {files : List (Text × Text)} (hnames : ∀ f ∈ files, f.1 ∈ fileNames)
    (hroom : ∀ name ∈ fileNames, pathObstacle? (out.child name) = none)
    (hleads : s.tree.LeadsTo w.directory out place) (hplace : s.tree.find? place = some .directory)
    (hfree : ∀ name ∈ fileNames, s.tree.find? (place ++ [name]) ≠ some .directory) :
    Completes (writeFiles out files) w s () { s with tree := Tree.putFiles place files s.tree } := by
  induction files generalizing s with
  | nil => rfl
  | cons f files ih =>
    obtain ⟨hf, hnames⟩ := forall_mem_cons.mp hnames
    have hlocate := Tree.locate_child_eq (plainPart_fileNames _ hf) (byteSize_fileNames _ hf) (hroom _ hf) hleads hplace
    refine Completes.bind (completes_writeFile_of hlocate (hfree _ hf)) ?_
    refine ih hnames (hleads.put (hfree _ hf)) ?_ fun name hname => ?_
    · rw [Tree.find?_put_of_ne (by simp)]
      exact hplace
    · by_cases he : name = f.1
      · rw [he, Tree.find?_put_self (by simp)]
        exact nofun
      · rw [Tree.find?_put_of_ne fun hne => he (singleton_inj.mp (append_cancel_left hne))]
        exact hfree name hname

namespace Ready

variable {w : Surroundings} {s made : Session} {out : Path} {place : List Text} {data : Value}

/-- The session after the files of a build were written into the directory. -/
def written (made : Session) (place : List Text) (files : List (Text × Text)) : Session :=
  { made with tree := Tree.putFiles place files made.tree }

theorem completes_writeBuild (h : Ready w s out made place) (data : Value) :
    Completes (writeFiles out (build out.name data).files) w made ()
      (written made place (build out.name data).files) :=
  completes_writeFiles_of (fun _ => mem_fileNames_of_mem_build) h.room h.leads h.directory h.free

theorem ran_of_fault (h : Ready w s out made place) {f : Fault} (hf : (build out.name data).fault = some f) :
    Ran (buildInto out data) w s (.error (.fault f)) (written made place (build out.name data).files) := by
  refine Completes.bind h.makes ?_
  unfold build at hf ⊢
  split at hf
  · next g hparts =>
    cases hf
    rw [hparts]
    exact Ran.bind_error ran_lift_error
  · next p hparts =>
    have hbuild : build out.name data = p.build out.name := by rw [build, hparts]
    have hfiles := h.completes_writeBuild data
    rw [hbuild] at hfiles
    refine Completes.bind (completes_lift_iff.mpr ⟨hparts, rfl⟩) (Ran.bind_error (Completes.bind hfiles ?_))
    rw [hf]
    exact ran_fail

/-- A build without a fault goes on to report what it has written. -/
theorem ran_of_ok (h : Ready w s out made place) {p : Parts} (hp : Parts.ofValue data = .ok p)
    (hf : (build out.name data).fault = none) {r : Except Stop Unit} {s' : Session}
    (hreport : Ran (Session.lift (p.report out.text out.name) >>= Session.sayAll) w
      (written made place (build out.name data).files) r s') : Ran (buildInto out data) w s r s' := by
  have hbuild : build out.name data = p.build out.name := by rw [build, hp]
  have hfiles := h.completes_writeBuild data
  rw [hbuild] at hf hreport hfiles
  refine Completes.bind h.makes (Completes.bind (completes_lift_iff.mpr ⟨hp, rfl⟩) (Completes.bind (a := ()) ?_ hreport))
  refine Completes.bind hfiles ?_
  rw [hf]
  rfl

/-- **A build into a ready directory** leaves all files that it has, however it ends. -/
theorem tree_eq (h : Ready w s out made place) {r : Except Stop Unit} {s' : Session}
    (hrun : Ran (buildInto out data) w s r s') :
    s'.tree = Tree.putFiles place (build out.name data).files made.tree := by
  cases hf : (build out.name data).fault with
  | some f =>
    have hsame := (h.ran_of_fault hf).symm.trans hrun
    cases hsame
    rfl
  | none =>
    obtain ⟨p, hp⟩ := parts_of_ok hf
    generalize hreport : ((Session.lift (p.report out.text out.name) >>= Session.sayAll).run w).run.run
      (written made place (build out.name data).files) = result
    obtain ⟨r', s''⟩ := result
    have hkeeps := ((keepsTree_lift _).bind fun lines => keepsTree_sayAll lines) _ _ _ _ hreport
    have hsame := (h.ran_of_ok hp hf hreport).symm.trans hrun
    cases hsame
    exact hkeeps

end Ready

end PluginKit.Package
