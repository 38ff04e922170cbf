import PluginKit.Proofs.Check.Examined
import PluginKit.Proofs.Console.Resolved

/-!
# Checks that end with a verdict

A check of a directory ends with a verdict exactly if the plugin there is `Examinable`; otherwise it ends by a fault,
and no verdict is given (`check_ends_iff`). A manifest that is no JSON text at all is no obstacle, but a JSON text that is
no object is one, and so is an object whose author is no object or whose categories are a number.
-/

namespace PluginKit.Console

open Files

def Stop.IsFault : Stop → Prop
  | .fault _ => True
  | _ => False

theorem Stop.IsPlain.isFault (stop : Stop) (h : stop.IsPlain) : stop.IsFault := by
  cases stop with
  | fault f => trivial
  | exit code => exact h
  | waiting => exact h

/-- The path is short enough to look where it leads. -/
def Visible (w : Surroundings) (t : Tree) (p : Path) : Prop := t.locate w.directory p ≠ .error .nameTooLong

theorem completes_exists?_iff {w : Surroundings} {s s' : Session} {p : Path} {b : Bool} :
    Completes (Session.exists? p) w s b s' ↔ (Visible w s.tree p ∧ (b = true ↔ Occupied w s.tree p)) ∧ s' = s := by
  constructor
  · intro h
    obtain ⟨hb, rfl⟩ := completes_exists? h
    refine ⟨⟨fun hlong => ?_, hb⟩, rfl⟩
    obtain ⟨o, s₁, hentry, -⟩ := completes_bind_iff.mp h
    obtain ⟨located, s₂, hlocated, hfound⟩ := completes_bind_iff.mp hentry
    obtain ⟨rfl, -⟩ := completes_locate?_iff.mp hlocated
    rw [hlong] at hfound
    exact not_completes_fail hfound
  · rintro ⟨⟨hvisible, hb⟩, rfl⟩
    -- Whatever is found, it is found without a fault, and the answer is the only one that fits.
    have hsome : ∃ b', Completes (Session.exists? p) w s' b' s' := by
      cases hlocate : s'.tree.locate w.directory p with
      | ok place =>
        refine ⟨(s'.tree.find? place).isSome, Completes.bind (Completes.bind (completes_locate?_iff.mpr ⟨rfl, rfl⟩) ?_) rfl⟩
        rw [hlocate]
        rfl
      | error o =>
        refine ⟨false, Completes.bind (a := none) (Completes.bind (completes_locate?_iff.mpr ⟨rfl, rfl⟩) ?_) rfl⟩
        rw [hlocate]
        cases o with
        | nameTooLong => exact absurd hlocate hvisible
        | _ => rfl
    obtain ⟨b', hb'⟩ := hsome
    have hsame : b = b' := Bool.eq_iff_iff.mpr (hb.trans (completes_exists? hb').1.symm)
    rw [hsame]
    exact hb'

end PluginKit.Console

namespace PluginKit.Check

open Console Files List

/-! ### Steps in a directory -/

/-- Exactly under a condition, a step of the check of a directory is completed and what it has found can be written. -/
structure Requires (w : Surroundings) (t : Tree) (x : Report → SessionM Report) (P : Prop) : Prop where
  keepsTree : ∀ r, KeepsTree (x r)
  stops : ∀ r, StopsOnly Stop.IsFault (x r)
  completes_iff : ∀ (r : Report) (s : Session), s.tree = t →
    ((∃ r' s', Completes (x r) w s r' s' ∧ r'.Tellable) ↔ r.Tellable ∧ P)

section
variable {w : Surroundings} {t : Tree} {α : Type} {P Q : Prop} {x y : Report → SessionM Report}

theorem Requires.congr (h : Requires w t x P) (hPQ : P ↔ Q) : Requires w t x Q :=
  ⟨h.keepsTree, h.stops, fun r s hs => (h.completes_iff r s hs).trans (and_congr_right fun _ => hPQ)⟩

theorem requires_pure : Requires w t (fun r => pure r) True where
  keepsTree r := keepsTree_pure r
  stops r := stopsOnly_pure r
  completes_iff r s _ := by
    rw [and_true]
    constructor
    · rintro ⟨r', s', hpure, hr'⟩
      obtain ⟨rfl, rfl⟩ := completes_pure_iff.mp hpure
      exact hr'
    · intro hr
      exact ⟨r, s, rfl, hr⟩

theorem Requires.bind (hx : Requires w t x P) (hy : Requires w t y Q) : Requires w t (fun r => x r >>= y) (P ∧ Q) where
  keepsTree r := (hx.keepsTree r).bind hy.keepsTree
  stops r := (hx.stops r).bind hy.stops
  completes_iff r s hs := by
    constructor
    · rintro ⟨r', s', h, hr'⟩
      obtain ⟨r₁, s₁, hfirst, hrest⟩ := completes_bind_iff.mp h
      have hs₁ : s₁.tree = t := (hx.keepsTree r w s _ s₁ hfirst).trans hs
      obtain ⟨hr₁, hQ⟩ := (hy.completes_iff r₁ s₁ hs₁).mp ⟨r', s', hrest, hr'⟩
      obtain ⟨hr, hP⟩ := (hx.completes_iff r s hs).mp ⟨r₁, s₁, hfirst, hr₁⟩
      exact ⟨hr, hP, hQ⟩
    · rintro ⟨hr, hP, hQ⟩
      obtain ⟨r₁, s₁, hfirst, hr₁⟩ := (hx.completes_iff r s hs).mpr ⟨hr, hP⟩
      have hs₁ : s₁.tree = t := (hx.keepsTree r w s _ s₁ hfirst).trans hs
      obtain ⟨r', s', hrest, hr'⟩ := (hy.completes_iff r₁ s₁ hs₁).mpr ⟨hr₁, hQ⟩
      exact ⟨r', s', Completes.bind hfirst hrest, hr'⟩

theorem Requires.say_bind (hx : Requires w t x P) (line : String) :
    Requires w t (fun r => Session.say line >>= fun _ => x r) P where
  keepsTree r := (keepsTree_say _).bind fun _ => hx.keepsTree r
  stops r := ((steady_print _).stops.mono Stop.IsPlain.isFault).bind fun _ => hx.stops r
  completes_iff r s hs := by
    simp only [completes_say_bind_iff, encodable_ofString, true_and]
    exact hx.completes_iff r (s.saying [line]) hs

theorem Requires.say_if_bind (hx : Requires w t x P) (b : Bool) (line : String) :
    Requires w t (fun r => if b = true then Session.say line >>= fun _ => x r else x r) P := by
  cases b with
  | false => exact hx
  | true => exact hx.say_bind line

theorem requires_look {look : SessionM α} {R : α → Prop} {f : α → Report → SessionM Report} {P : α → Prop}
    (hlooks : Looks look) (hstops : StopsOnly Stop.IsFault look)
    (hlook : ∀ (s : Session) (a : α) (s' : Session), s.tree = t → (Completes look w s a s' ↔ R a ∧ s' = s))
    (hf : ∀ a, Requires w t (f a) (P a)) : Requires w t (fun r => look >>= fun a => f a r) (∃ a, R a ∧ P a) where
  keepsTree r := hlooks.keepsTree.bind fun a => (hf a).keepsTree r
  stops r := hstops.bind fun a => (hf a).stops r
  completes_iff r s hs := by
    constructor
    · rintro ⟨r', s', h, hr'⟩
      obtain ⟨a, s₁, hfirst, hrest⟩ := completes_bind_iff.mp h
      obtain ⟨hR, rfl⟩ := (hlook s a s₁ hs).mp hfirst
      obtain ⟨hr, hP⟩ := ((hf a).completes_iff r _ hs).mp ⟨r', s', hrest, hr'⟩
      exact ⟨hr, a, hR, hP⟩
    · rintro ⟨hr, a, hR, hP⟩
      obtain ⟨r', s', hrest, hr'⟩ := ((hf a).completes_iff r s hs).mpr ⟨hr, hP⟩
      exact ⟨r', s', Completes.bind ((hlook s a s hs).mpr ⟨hR, rfl⟩) hrest, hr'⟩

theorem requires_exists? {p : Path} {f : Bool → Report → SessionM Report} {P : Bool → Prop}
    (hf : ∀ b, Requires w t (f b) (P b)) :
    Requires w t (fun r => Session.exists? p >>= fun b => f b r)
      (Visible w t p ∧ ∀ b, (b = true ↔ Occupied w t p) → P b) := by
  refine (requires_look (looks_exists? p) ((steady_exists? p).stops.mono Stop.IsPlain.isFault)
    (fun _ _ _ hs => hs ▸ completes_exists?_iff) hf).congr ⟨?_, ?_⟩
  · rintro ⟨b, ⟨hvisible, hb⟩, hP⟩
    refine ⟨hvisible, fun b' hb' => ?_⟩
    rw [Bool.eq_iff_iff.mpr (hb'.trans hb.symm)]
    exact hP
  · rintro ⟨hvisible, hP⟩
    by_cases hoccupied : Occupied w t p
    · exact ⟨true, ⟨hvisible, iff_of_true rfl hoccupied⟩, hP true (iff_of_true rfl hoccupied)⟩
    · have hb := iff_of_false Bool.false_ne_true hoccupied
      exact ⟨false, ⟨hvisible, hb⟩, hP false hb⟩

/-- A step for which it does not matter whether something is there. -/
theorem requires_exists?_of_any {p : Path} {f : Bool → Report → SessionM Report} (hf : ∀ b, Requires w t (f b) P) :
    Requires w t (fun r => Session.exists? p >>= fun b => f b r) (Visible w t p ∧ P) := by
  refine (requires_exists? hf).congr (and_congr_right fun _ => ⟨fun h => ?_, fun h _ _ => h⟩)
  by_cases hoccupied : Occupied w t p
  · exact h true (iff_of_true rfl hoccupied)
  · exact h false (iff_of_false Bool.false_ne_true hoccupied)

theorem requires_readText {p : Path} {f : Text → Report → SessionM Report} {P : Text → Prop}
    (hf : ∀ text, Requires w t (f text) (P text)) :
    Requires w t (fun r => Session.readText p >>= fun text => f text r) (∃ text, Reads w t p text ∧ P text) :=
  requires_look (looks_readText p) ((steady_readText p).stops.mono Stop.IsPlain.isFault)
    (fun _ _ _ hs => hs ▸ completes_readText_iff) hf

theorem requires_read {f : Surroundings → Report → SessionM Report} {P : Surroundings → Prop}
    (hf : ∀ w', Requires w t (f w') (P w')) : Requires w t (fun r => read >>= fun w' => f w' r) (P w) :=
  (requires_look (R := fun w' => w' = w) looks_read stopsOnly_read
    (fun s w' s' _ => by rw [completes_read_iff, @eq_comm _ s]) hf).congr (by simp)

theorem requires_run {step : CheckM Unit} (h : Needs step P) : Requires w t (run step) P where
  keepsTree r := by
    refine (keepsTree_sayAll _).bind fun _ => ?_
    split
    · exact keepsTree_pure _
    · exact keepsTree_fail _
  stops r := by
    refine ((steady_sayAll _).stops.mono Stop.IsPlain.isFault).bind fun _ => ?_
    split
    · exact stopsOnly_pure _
    · exact stopsOnly_throw trivial
  completes_iff r s _ := by
    constructor
    · rintro ⟨r', s', hrun, hr'⟩
      obtain ⟨hpass, hlines, -⟩ := completes_run_iff.mp hrun
      obtain ⟨d, rfl⟩ := h.grows _ _ hpass
      obtain ⟨hr, hd⟩ := Report.tellable_append_iff.mp hr'
      exact ⟨⟨hr.problems, hr.advice⟩, (h.passes_iff _).mp ⟨d, hpass, hd, hlines⟩⟩
    · rintro ⟨hr, hP⟩
      obtain ⟨d, hpass, hd⟩ := (h.passes_iff { r with lines := [] }).mpr hP
      exact ⟨_, _, completes_run_iff.mpr ⟨hpass, hd.lines, rfl⟩,
        Report.tellable_append_iff.mpr ⟨⟨hr.problems, hr.advice⟩, hd.toTellable⟩⟩

/-! ### Files -/

variable (directory : Path)

theorem needs_checkFile {name : Text} (hname : Encodable name) (present : Bool) :
    Needs (checkFile name present) True := by
  cases present with
  | true => exact (needs_say _).congr (by simp [hname])
  | false => exact needs_blame_say (by simp [Problem.message, hname]) (by simp [hname])

theorem requires_checkFiles {names : List Text} (hnames : ∀ name ∈ names, Encodable name) :
    Requires w t (fun r => checkFiles directory r names) (∀ name ∈ names, Visible w t (directory.child name)) := by
  induction names with
  | nil => exact requires_pure.congr (by simp)
  | cons name names ih =>
    obtain ⟨hname, hrest⟩ := forall_mem_cons.mp hnames
    have hfile (b : Bool) := (requires_run (w := w) (t := t) (needs_checkFile hname b)).bind (ih hrest)
    exact (requires_exists?_of_any hfile).congr (by rw [true_and, forall_mem_cons])

/-- A file that is looked for can be read if it is there, and what comes after can go on. -/
theorem requires_file {file : Path} {heading : String} {step : Text → Report → SessionM Report} {P : Text → Prop}
    (hstep : ∀ text, Requires w t (step text) (P text)) :
    Requires w t (fun r => do
      if ← Session.exists? file then
        Session.say heading
        let text ← Session.readText file
        step text r
      else return r) (Visible w t file ∧ (Occupied w t file → ∃ text, Reads w t file text ∧ P text)) := by
  have hread : ∀ b : Bool, Requires w t (fun r => if b = true then
        Session.say heading >>= fun _ => Session.readText file >>= fun text => step text r
      else pure r) (b = true → ∃ text, Reads w t file text ∧ P text) := by
    intro b
    cases b with
    | false => exact requires_pure.congr (by simp)
    | true => exact ((requires_readText hstep).say_bind heading).congr (by simp)
  refine (requires_exists? hread).congr (and_congr_right fun _ => ⟨fun h => ?_, fun h b hb => ?_⟩)
  · intro hoccupied
    exact h true (iff_of_true rfl hoccupied) rfl
  · intro hfound
    exact h (hb.mp hfound)

theorem requires_checkManifestFile : Requires w t (fun r => checkManifestFile directory r)
    (Visible w t (directory.child Package.manifestName) ∧ (Occupied w t (directory.child Package.manifestName) →
      ∃ text, Reads w t (directory.child Package.manifestName) text ∧ ExaminableText text)) :=
  requires_file fun text => requires_run (needs_manifestText text)

theorem needs_checkSource (problem : Option Text) :
    Needs (checkSource problem) (∀ reason, problem = some reason → Encodable reason) := by
  unfold checkSource
  cases problem with
  | none => exact (needs_say _).congr (by simp)
  | some reason =>
    refine ((needs_blame _).seq (needs_say _)).congr ?_
    simp [Problem.message]

theorem requires_checkModuleFile : Requires w t (fun r => checkModuleFile directory r)
    (Visible w t (directory.child moduleName) ∧ (Occupied w t (directory.child moduleName) →
      ∃ text, Reads w t (directory.child moduleName) text ∧
        ∀ reason, w.sourceProblem? text = some reason → Encodable reason)) :=
  requires_file fun text => requires_read fun w' => requires_run (needs_checkSource (w'.sourceProblem? text))

theorem needs_checkConfig (present : Bool) : Needs (checkConfig present) True := by
  cases present with
  | true => exact (needs_advise _).congr (by simp [Advice.message])
  | false => exact needs_pure

def lookedFor : List Text := [Package.manifestName, moduleName, "plugin.js", "config.toml"]

/-- The plugin in a directory can be checked to the end. -/
structure Examinable (w : Surroundings) (t : Tree) (directory : Path) : Prop where
  visible : ∀ name ∈ lookedFor, Visible w t (directory.child name)
  /-- If there is a manifest, it is a file of text that can be checked to the end. -/
  manifest : Occupied w t (directory.child Package.manifestName) →
    ∃ text, Reads w t (directory.child Package.manifestName) text ∧ ExaminableText text
  /-- If there is a module, it is a file of text, and what is wrong with it can be written. -/
  source : Occupied w t (directory.child moduleName) → ∃ text, Reads w t (directory.child moduleName) text ∧
    ∀ reason, w.sourceProblem? text = some reason → Encodable reason

theorem requires_checkDirectory :
    Requires w t (fun r => do
      Session.say "📂 检查文件结构..."
      let r ← checkFiles directory r requiredFiles
      if ← Session.exists? (directory.child "plugin.js") then
        Session.say "  ✅ plugin.js（JS 桥接插件）"
      let r ← checkManifestFile directory r
      let r ← checkModuleFile directory r
      run (checkConfig (← Session.exists? (directory.child "config.toml"))) r) (Examinable w t directory) := by
  have hnames : ∀ name ∈ requiredFiles, Encodable name := by simp [requiredFiles, Package.manifestName, moduleName]
  have hconfig : Requires w t (fun r => Session.exists? (directory.child "config.toml") >>= fun b =>
      run (checkConfig b) r) _ := requires_exists?_of_any fun b => requires_run (needs_checkConfig b)
  have hrest := (requires_checkManifestFile directory).bind ((requires_checkModuleFile directory).bind hconfig)
  have hbridge := requires_exists?_of_any (p := directory.child "plugin.js") fun b =>
    hrest.say_if_bind b "  ✅ plugin.js（JS 桥接插件）"
  refine (((requires_checkFiles directory hnames).bind hbridge).say_bind _).congr ⟨?_, ?_⟩
  · rintro ⟨hrequired, hjs, ⟨-, hmanifest⟩, ⟨-, hsource⟩, hconfig, -⟩
    simp only [requiredFiles, forall_mem_cons] at hrequired
    refine ⟨?_, hmanifest, hsource⟩
    simp only [lookedFor, forall_mem_cons]
    exact ⟨hrequired.1, hrequired.2.1, hjs, hconfig, forall_mem_nil _⟩
  · intro h
    have hvisible := h.visible
    simp only [lookedFor, forall_mem_cons] at hvisible
    refine ⟨?_, hvisible.2.2.1, ⟨hvisible.1, h.manifest⟩, ⟨hvisible.2.1, h.source⟩, hvisible.2.2.2.1, trivial⟩
    simp only [requiredFiles, forall_mem_cons]
    exact ⟨hvisible.1, hvisible.2.1, forall_mem_nil _⟩

end

/-! ### The verdict -/

theorem encodable_verdict_iff {r : Report} : (∀ line ∈ r.verdict, Encodable line) ↔ r.Tellable := by
  have hlisted (heading : String) (items : List Text) :
      (∀ line ∈ listed heading items, Encodable line) ↔ ∀ item ∈ items, Encodable item := by
    unfold listed
    cases items with
    | nil => simp
    | cons item items => simp
  have hrule : Encodable ("\n" ++ Text.times 50 '=') := (encodable_ofString _).append (encodable_times rfl _)
  have hline : Encodable r.verdictLine := by
    unfold Report.verdictLine
    split
    · exact encodable_ofString _
    · exact encodable_ofString _
  unfold Report.verdict
  simp only [forall_mem_append, forall_mem_cons, hlisted, forall_mem_map]
  constructor
  · rintro ⟨⟨⟨-, hproblems⟩, hadvice⟩, -⟩
    exact ⟨hproblems, hadvice⟩
  · intro h
    exact ⟨⟨⟨⟨hrule, hline, nofun⟩, h.problems⟩, h.advice⟩, encodable_nil, nofun⟩

def greeting (path : Path) : Text := "\n🔍 正在验证插件：" ++ path.text ++ "\n"

section
variable {w : Surroundings} {s s' : Session} {directory : Path}

theorem completes_check_iff (hdirectory : DirectoryAt w s.tree directory) :
    Completes (check directory) w s () s' ↔ Encodable (directory.resolve w.directory).text ∧
      ∃ r s₁, Completes (checkDirectory directory) w (s.saying [greeting (directory.resolve w.directory)]) r s₁ ∧
        r.Tellable ∧ s' = s₁.saying r.verdict := by
  obtain ⟨place, hlocate, hfind⟩ := hdirectory
  have hdirectory : DirectoryAt w s.tree directory := ⟨place, hlocate, hfind⟩
  have hpath : pathObstacle? directory = none := by
    unfold Tree.locate at hlocate
    split at hlocate
    · cases hlocate
    · assumption
  have hgreeting : Encodable (greeting (directory.resolve w.directory)) ↔ Encodable (directory.resolve w.directory).text := by
    simp [greeting]
  have hthere : DirectoryAt w (s.saying [greeting (directory.resolve w.directory)]).tree directory := hdirectory
  refine (completes_resolve_of hpath).bind_iff.trans (completes_say_bind_iff.trans (and_congr hgreeting ?_))
  refine hthere.occupied.completes_exists?.bind_iff.trans (hthere.completes_isDirectory.bind_iff.trans ?_)
  refine completes_bind_iff.trans (exists_congr fun r => exists_congr fun s₁ => and_congr_right fun _ => ?_)
  rw [completes_sayAll_iff, encodable_verdict_iff]

theorem stopsOnly_check (directory : Path) : StopsOnly Stop.IsFault (check directory) := by
  have hsay (line : Text) : StopsOnly Stop.IsFault (Session.say line) := (steady_print _).stops.mono Stop.IsPlain.isFault
  refine ((steady_resolve directory).stops.mono Stop.IsPlain.isFault).bind fun path => (hsay _).bind fun _ => ?_
  refine ((steady_exists? directory).stops.mono Stop.IsPlain.isFault).bind fun b => ?_
  split
  · exact hsay _
  · refine ((steady_isDirectory directory).stops.mono Stop.IsPlain.isFault).bind fun b => ?_
    split
    · exact hsay _
    · refine StopsOnly.bind (fun w s => ?_) fun r => (steady_sayAll _).stops.mono Stop.IsPlain.isFault
      exact (requires_checkDirectory (w := w) (t := s.tree) directory).stops .empty w s

theorem exists_completes_check_iff (hdirectory : DirectoryAt w s.tree directory) :
    (∃ s', Completes (check directory) w s () s') ↔
      Encodable (directory.resolve w.directory).text ∧ Examinable w s.tree directory := by
  have hempty : Report.empty.Tellable := ⟨fun _ hp => absurd hp not_mem_nil, fun _ ha => absurd ha not_mem_nil⟩
  have hchecked := (requires_checkDirectory (w := w) (t := s.tree) directory).completes_iff .empty
    (s.saying [greeting (directory.resolve w.directory)]) rfl
  rw [and_iff_right hempty] at hchecked
  -- The verdict is printed exactly if the findings can be written, and that is part of what the steps require.
  simp only [completes_check_iff hdirectory, exists_and_left]
  refine and_congr_right fun _ => Iff.trans ⟨?_, ?_⟩ hchecked
  · rintro ⟨s', r, s₁, hcheck, hr, -⟩
    exact ⟨r, s₁, hcheck, hr⟩
  · rintro ⟨r, s₁, hcheck, hr⟩
    exact ⟨_, r, s₁, hcheck, hr, rfl⟩

/-- **When there is a verdict.** A check of a directory ends with a verdict exactly if its path can be written and the
plugin there can be checked to the end; otherwise it ends by a fault. -/
theorem check_ends_iff (hdirectory : DirectoryAt w s.tree directory) :
    ((∃ s' before errors warnings, Completes (check directory) w s () s' ∧
        s'.output = s.output ++ unlines (before ++ closing errors warnings)) ↔
      Encodable (directory.resolve w.directory).text ∧ Examinable w s.tree directory) ∧
    (¬ (Encodable (directory.resolve w.directory).text ∧ Examinable w s.tree directory) →
      ∃ f s', Ran (check directory) w s (.error (.fault f)) s') := by
  have hcompletes := exists_completes_check_iff hdirectory
  constructor
  · rw [← hcompletes]
    constructor
    · rintro ⟨s', -, -, -, hcheck, -⟩
      exact ⟨s', hcheck⟩
    · rintro ⟨s', hcheck⟩
      obtain ⟨-, r, s₁, hchecked, -, rfl⟩ := (completes_check_iff hdirectory).mp hcheck
      obtain ⟨⟨-, lines, hlines, -⟩, -⟩ := usable_of_checkDirectory hchecked
      refine ⟨_, [greeting (directory.resolve w.directory)] ++ lines, r.problems.map Problem.message,
        r.advice.map Advice.message, hcheck, ?_⟩
      rw [← verdict_eq, unlines_append, unlines_append, ← List.append_assoc, ← List.append_assoc]
      exact congrArg (· ++ unlines r.verdict) hlines
  · -- What is not completed has ended early, and the check ends early only by a fault.
    intro hnot
    obtain ⟨result, s', hran⟩ := exists_ran (check directory) w s
    cases result with
    | ok u => exact absurd (hcompletes.mp ⟨s', hran⟩) hnot
    | error stop =>
      have hfault := stopsOnly_check directory w s stop s' hran
      cases stop with
      | fault f => exact ⟨f, s', hran⟩
      | exit code => cases hfault
      | waiting => cases hfault

end

/-- A plugin whose manifest is a list, and whose module is empty. -/
def listPlugin : Tree :=
  ((Tree.empty.put ["p"] .directory).put ["p", "_manifest.json"] (.file (.text "[]"))).put ["p", "plugin.py"]
    (.file (.text ""))

theorem not_examinableText_list : ¬ ExaminableText "[]" := by
  have hread : Json.read "[]" = .ok (.list []) := rfl
  rintro (⟨e, he⟩ | ⟨entries, hentries, -⟩)
  · rw [hread] at he
    cases he
  · rw [hread] at hentries
    cases hentries

theorem plainPlugin_listPlugin_end :
    (∃ s' before errors warnings, Completes (check ⟨"", ["p"]⟩) lenientMachine (.start plainPlugin []) () s' ∧
      s'.output = unlines (before ++ closing errors warnings)) ∧
    ∃ f s', Ran (check ⟨"", ["p"]⟩) lenientMachine (.start listPlugin []) (.error (.fault f)) s' := by
  constructor
  · have hdirectory : DirectoryAt lenientMachine plainPlugin ⟨"", ["p"]⟩ := ⟨["p"], by decide +kernel, rfl⟩
    have hcheck : completesWith (check ⟨"", ["p"]⟩) lenientMachine (.start plainPlugin []) (fun _ => true) = true := by
      decide +kernel
    obtain ⟨_, s', hcompletes, -⟩ := exists_of_completesWith hcheck
    exact (check_ends_iff (s := .start plainPlugin []) hdirectory).1.mpr
      ((exists_completes_check_iff hdirectory).mp ⟨s', hcompletes⟩)
  · have hdirectory : DirectoryAt lenientMachine listPlugin ⟨"", ["p"]⟩ := ⟨["p"], by decide +kernel, rfl⟩
    have hmanifest : Reads lenientMachine listPlugin ((⟨"", ["p"]⟩ : Path).child Package.manifestName) "[]" :=
      ⟨["p", "_manifest.json"], .text "[]", by decide +kernel, rfl, rfl⟩
    refine (check_ends_iff (s := .start listPlugin []) hdirectory).2 fun h => ?_
    obtain ⟨text, hreads, hexaminable⟩ := h.2.manifest hmanifest.occupied
    exact not_examinableText_list (hreads.unique hmanifest ▸ hexaminable)

/-- A manifest that is a list ends the check, because a list has no entries to ask for. -/
theorem listPlugin_faults :
    ∃ s', Ran (check ⟨"", ["p"]⟩) lenientMachine (.start listPlugin []) (.error (.fault (.noMember .list "get"))) s' := by
  have hcheck : faultsWith (check ⟨"", ["p"]⟩) lenientMachine (.start listPlugin []) (fun f => match f with
      | .noMember .list member => member == "get"
      | _ => false) = true := by decide +kernel
  obtain ⟨f, s', hran, hf⟩ := exists_of_faultsWith hcheck
  split at hf
  · next member =>
    rw [← eq_of_beq hf]
    exact ⟨s', hran⟩
  · cases hf

end PluginKit.Check
