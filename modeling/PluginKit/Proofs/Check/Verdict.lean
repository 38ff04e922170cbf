import PluginKit.Proofs.Check.Manifest
import PluginKit.Proofs.Json.Denoted

/-!
# The verdict on a plugin

A check that is completed ends with its verdict and what it found (`closing`). The verdict is good exactly if the plugin
is `Usable`: its manifest is a JSON object whose entries are sound, and its module is a source text (`check_verdict`).
Nothing that is printed before can be taken for a verdict (`Murmured`).
-/

namespace PluginKit.Check

open Console Files List

variable {line heading : Text} {all : Bool} {P : Prop}

/-! ### What is found -/

theorem decides_checkFile (name : Text) (present : Bool) :
    Decides all (checkFile name present) (all = true → present = true) := by
  cases present with
  | true => exact (decides_say rfl).congr (by simp)
  | false => exact ((decides_blame _).seq (decides_say rfl)).congr (by simp [Problem.counts, Problem.isAboutManifest])

theorem decides_checkSource (problem : Option Text) :
    Decides all (checkSource problem) (all = true → problem = none) := by
  unfold checkSource
  cases problem with
  | none => exact (decides_say rfl).congr (by simp)
  | some reason => exact ((decides_blame _).seq (decides_say rfl)).congr (by simp [Problem.counts, Problem.isAboutManifest])

theorem decides_checkConfig (present : Bool) : Decides all (checkConfig present) True := by
  cases present with
  | true => exact decides_advise _
  | false => exact decides_pure

/-- The check of the text of a manifest finds no problem exactly if it is a JSON object with sound entries. -/
theorem decides_manifestText (text : Text) :
    Decides all (checkManifestText text) (∃ entries, Json.read text = .ok (.dict entries) ∧ Sound entries) := by
  unfold checkManifestText
  cases hread : Json.read text with
  | error e =>
    cases e with
    | fault f =>
      intro r r' h
      cases h
    | malformed e => exact (decides_blame_say rfl rfl).congr (by simp)
  | ok manifest =>
    intro r r' h
    have hdenoted := Json.denoted_of_read hread
    obtain ⟨entries, hentries⟩ := exists_of_passes h
    obtain rfl : manifest = .dict entries := hdenoted.view_eq.symm.trans hentries
    have hview : ∀ author, Value.field? "author" entries = some author → author.view = author := by
      intro author hauthor
      obtain ⟨room, hroom⟩ := hdenoted.field hauthor
      exact hroom.view_eq
    exact (decides_manifest hview).congr (by simp) r r' h

/-! ### Files -/

/-- Between two states of a session nothing was printed that can be taken for a verdict, and no files were changed. -/
structure Murmured (s s' : Session) : Prop where
  tree : s'.tree = s.tree
  output : ∃ lines, s'.output = s.output ++ unlines lines ∧ ∀ line ∈ lines, isInset line = true

section
variable {w : Surroundings} {s s₁ s' : Session} {r r' : Report} {directory : Path}

theorem Murmured.refl (s : Session) : Murmured s s := ⟨rfl, [], by simp, by simp⟩

theorem Murmured.trans (h : Murmured s s₁) (h' : Murmured s₁ s') : Murmured s s' := by
  obtain ⟨lines, hout, hlines⟩ := h.output
  obtain ⟨lines', hout', hlines'⟩ := h'.output
  refine ⟨h'.tree.trans h.tree, lines ++ lines', ?_, forall_mem_append.mpr ⟨hlines, hlines'⟩⟩
  rw [hout', hout, unlines_append, append_assoc]

theorem murmured_say {u : Unit} (hline : isInset line = true) (h : Completes (Session.say line) w s u s') :
    Murmured s s' := by
  obtain ⟨-, rfl⟩ := completes_say_iff_saying.mp h
  exact ⟨rfl, [line], rfl, forall_mem_singleton.mpr hline⟩

theorem completes_checkManifestFile_iff {text : Text}
    (h : Reads w s.tree (directory.child Package.manifestName) text) :
    (∃ s', Completes (checkManifestFile directory r) w s r' s') ↔
      Passes (checkManifestText text) { r with lines := [] } () r' ∧ ∀ line ∈ r'.lines, Encodable line := by
  have hread (said : List Text) : Completes (Session.readText (directory.child Package.manifestName)) w (s.saying said) text
      (s.saying said) := completes_readText_iff.mpr ⟨h, rfl⟩
  have hcompletes (s' : Session) : Completes (checkManifestFile directory r) w s r' s' ↔ _ :=
    h.occupied.completes_exists?.bind_iff.trans (completes_say_bind_iff.trans
      (and_congr_right fun _ => (hread _).bind_iff.trans completes_run_iff))
  simp [hcompletes]

/-- What a step of the check of a directory prints and finds. -/
structure Finds (all : Bool) (s s' : Session) (r r' : Report) (P : Prop) : Prop where
  murmured : Murmured s s'
  clear_iff : r'.Clear all ↔ r.Clear all ∧ P

theorem finds_run {step : CheckM Unit} (hd : Decides all step P) (h : Completes (run step r) w s r' s') :
    Finds all s s' r r' P := by
  obtain ⟨hpass, -, rfl⟩ := completes_run_iff.mp h
  obtain ⟨d, rfl, hlines, hclear⟩ := hd _ _ hpass
  refine ⟨⟨rfl, d.lines, rfl, hlines⟩, ?_⟩
  rw [← hclear]
  exact forall_mem_append

theorem finds_checkFiles {names : List Text} (h : Completes (checkFiles directory r names) w s r' s') :
    Finds all s s' r r' (∀ name ∈ names, all = true → Occupied w s.tree (directory.child name)) := by
  induction names generalizing r s with
  | nil =>
    obtain ⟨rfl, rfl⟩ := completes_pure_iff.mp h
    exact ⟨.refl s, by simp⟩
  | cons name names ih =>
    obtain ⟨b, s₁, hexists, hfirst⟩ := completes_bind_iff.mp h
    obtain ⟨hb, rfl⟩ := completes_exists? hexists
    obtain ⟨r₁, s₂, hrun, hrest⟩ := completes_bind_iff.mp hfirst
    have hfile : Finds all _ _ _ _ _ := finds_run (decides_checkFile name b) hrun
    have hfiles := ih hrest
    rw [hfile.murmured.tree] at hfiles
    refine ⟨hfile.murmured.trans hfiles.murmured, ?_⟩
    rw [hfiles.clear_iff, hfile.clear_iff, hb, forall_mem_cons, and_assoc]

theorem finds_readText {file : Path} {step : Text → SessionM Report} (hheading : isInset heading = true)
    (hstep : ∀ text, Reads w s.tree file text → ∀ s s', Completes (step text) w s r' s' → Finds all s s' r r' P)
    (hvacant : ¬ Occupied w s.tree file → P)
    (h : Completes (do
      if ← Session.exists? file then
        Session.say heading
        let text ← Session.readText file
        step text
      else return r) w s r' s') : Finds all s s' r r' P := by
  obtain ⟨b, s₁, hexists, h⟩ := completes_bind_iff.mp h
  obtain ⟨hb, rfl⟩ := completes_exists? hexists
  cases b with
  | false =>
    obtain ⟨rfl, rfl⟩ := completes_pure_iff.mp h
    exact ⟨.refl s₁, by simp [hvacant fun hoccupied => Bool.noConfusion (hb.mpr hoccupied)]⟩
  | true =>
    obtain ⟨u, s₂, hsay, hrest⟩ := completes_bind_iff.mp h
    obtain ⟨text, s₃, hread, hlast⟩ := completes_bind_iff.mp hrest
    obtain ⟨hreads, rfl⟩ := completes_readText_iff.mp hread
    have hsaid := murmured_say hheading hsay
    rw [hsaid.tree] at hreads
    have hfound := hstep text hreads _ _ hlast
    exact ⟨hsaid.trans hfound.murmured, hfound.clear_iff⟩

/-- The file that is read is the one that is there. -/
theorem reads_iff {file : Path} {text : Text} (Q : Text → Prop) (h : Reads w s.tree file text) :
    Q text ↔ (Occupied w s.tree file → ∃ text, Reads w s.tree file text ∧ Q text) := by
  refine ⟨fun hQ _ => ⟨text, h, hQ⟩, fun hQ => ?_⟩
  obtain ⟨text', h', hQ'⟩ := hQ h.occupied
  exact h.unique h' ▸ hQ'

theorem finds_checkModuleFile (h : Completes (checkModuleFile directory r) w s r' s') :
    Finds all s s' r r' (all = true → Occupied w s.tree (directory.child moduleName) →
      ∃ text, Reads w s.tree (directory.child moduleName) text ∧ w.sourceProblem? text = none) := by
  refine finds_readText rfl (fun text ht s s' hstep => ?_) (fun hvacant _ hoccupied => absurd hoccupied hvacant) h
  obtain ⟨w', s₁, hw, hrun⟩ := completes_bind_iff.mp hstep
  obtain ⟨rfl, rfl⟩ := completes_read_iff.mp hw
  exact finds_run ((decides_checkSource _).congr (forall_congr' fun _ => reads_iff (w'.sourceProblem? · = none) ht)) hrun

/-- **The check of a directory** finds what the check of the text of its manifest finds, and otherwise only problems that
are not about the manifest. -/
theorem finds_checkDirectory
    (hP : ∀ text, Reads w s.tree (directory.child Package.manifestName) text → Decides all (checkManifestText text) P)
    (hvacant : ¬ Occupied w s.tree (directory.child Package.manifestName) → P)
    (h : Completes (checkDirectory directory) w s r' s') :
    Murmured s s' ∧ (r'.Clear all ↔
      ((∀ name ∈ requiredFiles, all = true → Occupied w s.tree (directory.child name)) ∧ P) ∧
      (all = true → Occupied w s.tree (directory.child moduleName) →
        ∃ text, Reads w s.tree (directory.child moduleName) text ∧ w.sourceProblem? text = none)) := by
  obtain ⟨u, s₁, hsay, hsaid⟩ := completes_bind_iff.mp h
  obtain ⟨r₁, s₂, hfiles, hlooked⟩ := completes_bind_iff.mp hsaid
  obtain ⟨b, s₃, hexists, hbridge⟩ := completes_bind_iff.mp hlooked
  obtain ⟨-, rfl⟩ := completes_exists? hexists
  -- What is said about a bridge is no verdict.
  have hrest : ∃ s₄, Murmured s₃ s₄ ∧ Completes (do
      let r ← checkManifestFile directory r₁
      let r ← checkModuleFile directory r
      run (checkConfig (← Session.exists? (directory.child "config.toml"))) r) w s₄ r' s' := by
    cases b with
    | false => exact ⟨s₃, .refl s₃, hbridge⟩
    | true =>
      obtain ⟨u, s₄, hsay', hafter⟩ := completes_bind_iff.mp hbridge
      exact ⟨s₄, murmured_say rfl hsay', hafter⟩
  obtain ⟨s₄, hquiet, hsteps⟩ := hrest
  obtain ⟨r₂, s₅, hmanifest, hmore⟩ := completes_bind_iff.mp hsteps
  obtain ⟨r₃, s₆, hmodule, hlast⟩ := completes_bind_iff.mp hmore
  obtain ⟨b', s₇, hconfig, hrun⟩ := completes_bind_iff.mp hlast
  obtain ⟨-, rfl⟩ := completes_exists? hconfig
  have hbegun := murmured_say rfl hsay
  have hfound : Finds all _ _ _ _ _ := finds_checkFiles hfiles
  have hbefore := (hbegun.trans hfound.murmured).trans hquiet
  rw [← hbefore.tree] at hP hvacant
  have hfound₂ := finds_readText rfl (fun text ht _ _ => finds_run (hP text ht)) hvacant hmanifest
  have hfound₃ : Finds all _ _ _ _ _ := finds_checkModuleFile hmodule
  have hfound₄ : Finds all _ _ _ _ _ := finds_run (decides_checkConfig b') hrun
  have htree := hbefore.trans hfound₂.murmured
  refine ⟨(htree.trans hfound₃.murmured).trans hfound₄.murmured, ?_⟩
  have hempty : Report.empty.Clear all := nofun
  rw [hfound₄.clear_iff, hfound₃.clear_iff, hfound₂.clear_iff, hfound.clear_iff, htree.tree, hbegun.tree,
    and_true, and_iff_right hempty]

/-- The directory holds a plugin that can be used: a manifest that is a JSON object with sound entries, and a module that
is a source text. -/
structure Usable (w : Surroundings) (t : Tree) (directory : Path) : Prop where
  manifest : ∃ text entries, Reads w t (directory.child Package.manifestName) text ∧
    Json.read text = .ok (.dict entries) ∧ Sound entries
  source : ∃ text, Reads w t (directory.child moduleName) text ∧ w.sourceProblem? text = none

theorem usable_of_checkDirectory (h : Completes (checkDirectory directory) w s r' s') :
    Murmured s s' ∧ (r'.problems = [] ↔ Usable w s.tree directory) := by
  have hmanifest (text : Text) (ht : Reads w s.tree (directory.child Package.manifestName) text) :=
    (decides_manifestText text : Decides true _ _).congr
      (reads_iff (fun text => ∃ entries, Json.read text = .ok (.dict entries) ∧ Sound entries) ht)
  obtain ⟨hmurmured, hclear⟩ := finds_checkDirectory hmanifest (fun hvacant hoccupied => absurd hoccupied hvacant) h
  have hproblems : r'.problems = [] ↔ r'.Clear true := by simp [Report.Clear, Problem.counts, eq_nil_iff_forall_not_mem]
  refine ⟨hmurmured, hproblems.trans (hclear.trans ?_)⟩
  simp only [requiredFiles, forall_mem_cons, true_imp_iff]
  constructor
  · rintro ⟨⟨⟨hmanifest, hmodule, -⟩, hsound⟩, hsource⟩
    obtain ⟨text, hreads, entries, hread, hentries⟩ := hsound hmanifest
    exact ⟨⟨text, entries, hreads, hread, hentries⟩, hsource hmodule⟩
  · rintro ⟨⟨text, entries, hreads, hread, hentries⟩, text', hreads', hsource⟩
    exact ⟨⟨⟨hreads.occupied, hreads'.occupied, fun _ hmem => absurd hmem not_mem_nil⟩,
      fun _ => ⟨text, hreads, entries, hread, hentries⟩⟩, fun _ => ⟨text', hreads', hsource⟩⟩

end

/-! ### The verdict -/

def passLine (warnings : Nat) : Text := s!"✅ 验证通过！共 {warnings} 个警告"

def failLine (errors warnings : Nat) : Text := s!"❌ 验证失败！共 {errors} 个错误，{warnings} 个警告"

/-- The lines at the end of a check: the verdict with the numbers of errors and warnings, and the errors and warnings. -/
def closing (errors warnings : List Text) : List Text :=
  ["\n" ++ Text.times 50 '=', if errors = [] then passLine warnings.length else failLine errors.length warnings.length] ++
    listed "\n❌ 错误：" errors ++ listed "\n⚠️  警告：" warnings ++ [([] : Text)]

theorem verdict_eq (r : Report) : r.verdict = closing (r.problems.map Problem.message) (r.advice.map Advice.message) := by
  unfold Report.verdict closing Report.verdictLine
  cases r.problems <;> simp [passLine, failLine]

theorem isInset_listed (h : isInset heading = true) (items : List Text) :
    ∀ line ∈ listed heading items, isInset line = true := by
  have hitem : isInset "   - " = true := by decide
  unfold listed
  split
  · exact fun _ hmem => absurd hmem not_mem_nil
  · refine forall_mem_cons.mpr ⟨h, forall_mem_map.mpr fun item _ => isInset_append hitem item⟩

theorem head?_ofString_append {s : String} {c : CodePoint} (h : (Text.ofString s).head? = some c) (t : String) :
    (Text.ofString (s ++ t)).head? = some c := by
  unfold Text.ofString at h ⊢
  rw [String.toList_append, map_append, head?_append, h, Option.some_or]

theorem head?_passLine (n : Nat) : (passLine n).head? = some (.scalar '✅') :=
  head?_ofString_append (head?_ofString_append (by decide) _) _

theorem head?_failLine (m n : Nat) : (failLine m n).head? = some (.scalar '❌') :=
  head?_ofString_append (head?_ofString_append (head?_ofString_append (head?_ofString_append (by decide) _) _) _) _

theorem not_isInset_passLine (n : Nat) : isInset (passLine n) = false := by
  have hhead := head?_passLine n
  cases hline : passLine n with
  | nil => rfl
  | cons c line =>
    rw [hline] at hhead
    cases hhead
    rfl

theorem passLine_mem_closing_iff {errors warnings : List Text} :
    (∃ n, passLine n ∈ closing errors warnings) ↔ errors = [] := by
  constructor
  · rintro ⟨n, hmem⟩
    by_contra herrors
    simp only [closing, mem_append, mem_cons, not_mem_nil, or_false, if_neg herrors] at hmem
    have hrule : isInset ("\n" ++ Text.times 50 '=') = true := isInset_append (by decide) _
    rcases hmem with (((hmem | hmem) | hmem) | hmem) | hmem
    · exact absurd (hmem ▸ hrule) (by simp [not_isInset_passLine])
    · have hheads := (head?_passLine n).symm.trans ((congrArg List.head? hmem).trans (head?_failLine _ _))
      exact absurd hheads (by decide)
    · exact absurd (isInset_listed (by decide) errors _ hmem) (by simp [not_isInset_passLine])
    · exact absurd (isInset_listed (by decide) warnings _ hmem) (by simp [not_isInset_passLine])
    · have hhead := head?_passLine n
      rw [hmem] at hhead
      cases hhead
  · rintro rfl
    exact ⟨warnings.length, by simp [closing]⟩

def plainManifest : Text :=
  "\x7b\"manifest_version\": 1, \"name\": \"a\", \"version\": \"1\", \"description\": \"d\", \"author\": \x7b\"name\": \"b\"\x7d\x7d"

def plainPlugin : Tree :=
  ((Tree.empty.put ["p"] .directory).put ["p", "_manifest.json"] (.file (.text plainManifest))).put ["p", "plugin.py"]
    (.file (.text ""))

def lenientMachine : Surroundings := ⟨[], ⟨"", []⟩, false, true, 2024, true, fun _ => none⟩

end PluginKit.Check
