import PluginKit.Proofs.Package.Consistent
import PluginKit.Proofs.Package.Directory

/-!
# Builds in memory and builds into a directory

A build in memory is made for a directory of a fixed name, which only the read-me file mentions. So a build into a fresh
directory ends by the same fault or leaves the same files, up to that name and to the line ends, which are folded in
memory (`buildData_agrees`). The path of the directory has to have a UTF-8 form, since the read-me file and the report
mention it.
-/

namespace PluginKit.Package

open Console Files List
open Value (str)

variable {parts : List Text} {p : Parts} {directory name : Text} {a : Build} {files : List (Text × Text)} {data : Value}
  {out : Path}

/-! ### Names that can be written -/

theorem join_cons_cons (sep first second : Text) (parts : List Text) :
    Text.join sep (first :: second :: parts) = first ++ sep ++ Text.join sep (second :: parts) := rfl

theorem mem_join {sep part : Text} (hpart : part ∈ parts) {c : CodePoint} (hc : c ∈ part) :
    c ∈ Text.join sep parts := by
  induction parts with
  | nil => cases hpart
  | cons first parts ih =>
    cases parts with
    | nil =>
      cases mem_singleton.mp hpart
      exact hc
    | cons second parts =>
      rw [join_cons_cons]
      rcases mem_cons.mp hpart with rfl | hpart
      · exact mem_append_left _ (mem_append_left _ hc)
      · exact mem_append_right _ (ih hpart)

theorem encodable_name {p : Path} (h : Encodable p.text) : Encodable p.name := by
  unfold Path.name
  cases hlast : p.parts.getLast? with
  | none => exact nofun
  | some part =>
    have hpart : part ∈ p.parts := mem_of_getLast? hlast
    have htext : p.text = p.root ++ Text.join "/" p.parts := by
      refine if_neg ?_
      rw [Bool.and_eq_true, List.isEmpty_iff (l := p.parts)]
      rintro ⟨-, hnil⟩
      rw [hnil] at hpart
      cases hpart
    intro c hc
    exact h c (htext ▸ mem_append_right _ (mem_join hpart hc))

/-! ### The read-me file -/

/-- A text that mentions the directory only in the line on installing, if there is a text at all. -/
def MentionsOnce (text : Text → Outcome Text) : Prop :=
  (∃ f, ∀ directory, text directory = .error f) ∨ ∃ body, ∀ directory, text directory = .ok (body ++ installLine directory)

theorem MentionsOnce.bind {α : Type} {x : Outcome α} {text : α → Text → Outcome Text} (h : ∀ a, MentionsOnce (text a)) :
    MentionsOnce fun directory => x >>= fun a => text a directory := by
  cases x with
  | error f => exact .inl ⟨f, fun _ => rfl⟩
  | ok a => exact h a

theorem join_concat (sep last : Text) (h : parts ≠ []) :
    Text.join sep (parts ++ [last]) = Text.join sep parts ++ sep ++ last := by
  induction parts with
  | nil => exact absurd rfl h
  | cons first parts ih =>
    cases parts with
    | nil => rfl
    | cons second parts =>
      have ih := ih (cons_ne_nil _ _)
      rw [cons_append] at ih
      rw [cons_append, cons_append, join_cons_cons, ih, join_cons_cons]
      simp only [append_assoc]

theorem mentionsOnce_join (parts : List Text) (first second : Text) :
    MentionsOnce fun directory => .ok (Text.join "\n" (parts ++ [first, second, installLine directory])) := by
  refine .inr ⟨Text.join "\n" (parts ++ [first, second]) ++ "\n", fun directory => congrArg Except.ok ?_⟩
  rw [← join_concat _ _ (by simp), append_assoc]
  rfl

theorem mentionsOnce_readme (plugin commands actions : Value) :
    MentionsOnce fun directory => readme directory plugin commands actions := by
  unfold readme
  refine .bind fun nameValue => .bind fun name => .bind fun description => .bind fun authorValue => .bind fun author =>
    .bind fun versionValue => .bind fun version => .bind fun commandLines => .bind fun actionLines => ?_
  cases description with
  | str text => exact mentionsOnce_join _ _ _
  | _ => exact .inl ⟨_, fun _ => rfl⟩

theorem encodable_installLine (h : Encodable directory) : Encodable (installLine directory) :=
  ((encodable_ofString _).append h).append (encodable_ofString _)

/-! ### Builds for two directories -/

/-- Two files of the same name with the same text, except that the read-me files mention two directories. -/
structure SameFile (d d' : Text) (f g : Text × Text) : Prop where
  name : f.1 = g.1
  text : f.1 ≠ readmeName → f.2 = g.2
  readme : f.1 = readmeName → ∃ body, f.2 = body ++ installLine d ∧ g.2 = body ++ installLine d'

/-- Two builds end by the same fault, or have the same files. -/
structure SameBuild (d d' : Text) (a b : Build) : Prop where
  fault : a.fault = b.fault
  files : a.fault = none → List.Forall₂ (SameFile d d') a.files b.files

section
variable {d d' : Text}

theorem SameBuild.andThen {b c : Build} (ha : ∀ f ∈ a.files, f.1 ≠ readmeName) (h : SameBuild d d' b c) :
    SameBuild d d' (a.andThen b) (a.andThen c) := by
  unfold Build.andThen
  cases hf : a.fault with
  | some f =>
    refine ⟨rfl, fun hnone => ?_⟩
    rw [hf] at hnone
    cases hnone
  | none =>
    refine ⟨h.fault, fun hnone => rel_append ?_ (h.files hnone)⟩
    exact forall₂_same.mpr fun f hmem => ⟨rfl, fun _ => rfl, fun he => absurd he (ha f hmem)⟩

theorem SameBuild.readme (hd : Encodable d) (hd' : Encodable d') {text : Text → Outcome Text} (h : MentionsOnce text) :
    SameBuild d d' (Build.file readmeName (text d)) (Build.file readmeName (text d')) := by
  rcases h with ⟨f, hf⟩ | ⟨body, hbody⟩
  · rw [hf, hf]
    exact ⟨rfl, fun h => by cases h⟩
  · rw [hbody, hbody, Build.file, Build.file]
    simp only [checkUtf8_append (encodable_installLine hd), checkUtf8_append (encodable_installLine hd')]
    cases Text.checkUtf8 body with
    | error e => exact ⟨rfl, fun h => by cases h⟩
    | ok u =>
      refine ⟨rfl, fun _ => .cons ⟨rfl, fun hne => absurd rfl hne, fun _ => ⟨body, rfl, rfl⟩⟩ .nil⟩

theorem ne_readmeName (h : (files.map Prod.fst).Sublist [name])
    (hname : name ≠ readmeName) : ∀ f ∈ files, f.1 ≠ readmeName := by
  intro f hf he
  exact hname ((mem_singleton.mp (h.subset (mem_map_of_mem hf))).symm.trans he)

/-- **A build depends on the name of its directory** in one line of the read-me file only. -/
theorem sameBuild_build (hd : Encodable d) (hd' : Encodable d') (data : Value) :
    SameBuild d d' (build d data) (build d' data) := by
  unfold build
  cases Parts.ofValue data with
  | error f => exact ⟨rfl, nofun⟩
  | ok p =>
    refine .andThen (ne_readmeName (names_jsonFileOf _ _) (by decide)) ?_
    refine .andThen (ne_readmeName (names_file _ _) (by decide)) ?_
    refine .andThen ?_ (.readme hd hd' (mentionsOnce_readme _ _ _))
    split
    · exact ne_readmeName (names_file _ _) (by decide)
    · exact nofun

theorem andThen_of_ok (h : a.fault = none) (b : Build) : (a.andThen b).fault = b.fault := by
  rw [Build.andThen, h]

/-- A build for a directory whose name has no UTF-8 form ends by a fault, if it was not ended before. -/
theorem fault_of_not_encodable (hd : ¬ Encodable d') (h : (build d data).fault = none) :
    ∃ f, (build d' data).fault = some f := by
  obtain ⟨p, hp⟩ := parts_of_ok h
  have hbuild : ∀ d, build d data = p.build d := fun d => by rw [build, hp]
  rw [hbuild] at h ⊢
  obtain ⟨hmanifest, hrest, -⟩ := andThen_ok h
  obtain ⟨hmodule, hrest, -⟩ := andThen_ok hrest
  obtain ⟨hconfig, hreadme, -⟩ := andThen_ok hrest
  rw [Parts.build, andThen_of_ok hmanifest, andThen_of_ok hmodule, andThen_of_ok hconfig]
  obtain ⟨text, htext, -⟩ := file_ok hreadme
  rcases mentionsOnce_readme p.plugin p.commands p.actions with ⟨f, hf⟩ | ⟨body, hbody⟩
  · cases (hf d).symm.trans htext
  · have htext' : readme d' p.plugin p.commands p.actions = .ok (body ++ installLine d') := hbody d'
    rw [htext', Build.file]
    cases hutf8 : Text.checkUtf8 (body ++ installLine d') with
    | error e => exact ⟨_, rfl⟩
    | ok u =>
      have hall : Encodable (body ++ installLine d') := checkUtf8_eq_ok_iff.mp hutf8
      exact absurd (fun c hc => hall c (by simp [installLine, hc])) hd

end

/-! ### The report -/

def allNames (p : Parts) : List Text :=
  [manifestName, moduleName] ++ (if p.config.truthy then [configNoteName] else []) ++ [readmeName]

theorem names_of_ok {d : Text} (h : (p.build d).fault = none) : (p.build d).files.map Prod.fst = allNames p := by
  obtain ⟨_, _, _, rest, -, -, -, hfiles, hrest⟩ := build_ok h
  rw [hfiles, map_cons, map_cons, hrest]
  rfl

theorem length_of_elements {v : Value} {xs : List Value} (h : v.elements = .ok xs) : v.length = .ok xs.length := by
  cases helements : v.elements? with
  | none =>
    rw [Value.elements, helements] at h
    cases h
  | some items =>
    rw [Value.elements, helements] at h
    cases h
    rw [Value.length, helements]

/-- After a build without a fault there is a report, and it can be printed if the path of the directory can. -/
theorem report_of_ok {d path : Text} (h : (p.build d).fault = none) (hpath : Encodable path)
    (hdirectory : Encodable directory) :
    ∃ lines, p.report path directory = .ok lines ∧ ∀ line ∈ lines, Encodable line := by
  obtain ⟨v, -, -, -, hv, -, -, -, -⟩ := build_ok h
  obtain ⟨xs, ys, -, -, hx, hy, -, -, -⟩ := manifest_ok hv
  rw [Parts.report, length_of_elements hx, length_of_elements hy]
  refine ⟨_, rfl, ?_⟩
  split
  · simp [hpath, hdirectory]
  · simp [hpath, hdirectory]

/-- A build without a fault into a ready directory is completed, if the path of the directory can be written. -/
theorem Ready.completes {w : Surroundings} {s made : Session} {place : List Text}
    (h : Ready w s out made place) (hpath : Encodable out.text) (hfault : (build out.name data).fault = none) :
    ∃ s', Completes (buildInto out data) w s () s' := by
  obtain ⟨p, hp⟩ := parts_of_ok hfault
  have hparts : (p.build out.name).fault = none := by
    rw [build, hp] at hfault
    exact hfault
  obtain ⟨lines, hreport, hlines⟩ := report_of_ok hparts hpath (encodable_name hpath)
  obtain ⟨s', hsay⟩ := @completes_sayAll_of lines w (written made place (build out.name data).files) hlines
  exact ⟨s', h.ran_of_ok hp hfault (Completes.bind (completes_lift_iff.mpr ⟨hreport, rfl⟩) hsay)⟩

/-! ### In memory and on the disk -/

/-- A file on the disk and what it is in memory: its line ends are folded, and the read-me file mentions another
directory. -/
structure Agrees (directory : Text) (f g : Text × Text) : Prop where
  name : f.1 = g.1
  text : f.1 ≠ readmeName → g.2 = Text.foldNewlines f.2
  readme : f.1 = readmeName → ∃ body, f.2 = body ++ installLine directory ∧
    g.2 = Text.foldNewlines (body ++ installLine memoryDirectory)

theorem agrees_of_sameFile {memory : List (Text × Text)}
    (h : List.Forall₂ (SameFile directory memoryDirectory) files memory) :
    List.Forall₂ (Agrees directory) files (memory.map fun f => (f.1, Text.foldNewlines f.2)) := by
  rw [forall₂_map_right_iff]
  refine h.imp fun f g hfg => ⟨hfg.name, fun hne => ?_, fun he => ?_⟩
  · rw [hfg.text hne]
  · obtain ⟨body, hf, hg⟩ := hfg.readme he
    exact ⟨body, hf, by rw [hg]⟩

theorem inMemory_of_fault {f : Fault} (h : requireData data = .ok data)
    (hf : (build memoryDirectory data).fault = some f) : inMemory data = .error f := by
  rw [inMemory, h, Value.ok_bind]
  simp only [hf]

theorem inMemory_of_ok (h : requireData data = .ok data)
    (hf : (build memoryDirectory data).fault = none) :
    inMemory data = .ok ((build memoryDirectory data).files.map fun f => (f.1, Text.foldNewlines f.2)) := by
  rw [inMemory, h, Value.ok_bind]
  simp only [hf]
  rfl

theorem requireData_cases (data : Value) : requireData data = .error noData ∨ requireData data = .ok data := by
  cases data with
  | null => exact .inl rfl
  | _ => exact .inr rfl

theorem buildData_eq (h : requireData data = .ok data) : buildData out data = buildInto out data := by
  rw [buildData, h]
  rfl

/-- **A build into a fresh directory agrees with the build in memory**: they end by the same fault, or both are
completed. Then the names are the same, the texts agree, and on the disk nothing but these files and the missing
directories on the way has changed. -/
theorem buildData_agrees {w : Surroundings} {s made : Session} {out : Path} {place : List Text} {data : Value}
    (h : Fresh w s out made place) (hutf8 : Text.checkUtf8 out.text = .ok ()) :
    (∀ f, inMemory data = .error f → ∃ s', Ran (buildData out data) w s (.error (.fault f)) s') ∧
      ∀ memory, inMemory data = .ok memory → ∃ s' p files, Completes (buildData out data) w s () s' ∧
        Parts.ofValue data = .ok p ∧ memory.map Prod.fst = allNames p ∧ List.Forall₂ (Agrees out.name) files memory ∧
        (∀ f ∈ files, s'.tree.find? (place ++ [f.1]) = some (.file (.text f.2))) ∧
        (∀ q, (∀ f ∈ files, q ≠ place ++ [f.1]) → s'.tree.find? q = made.tree.find? q) ∧
        Tree.Made w.directory s.tree out made.tree := by
  have hpath : Encodable out.text := checkUtf8_eq_ok_iff.mp hutf8
  have hname : Encodable out.name := encodable_name hpath
  have hmemoryName : Encodable memoryDirectory := encodable_ofString _
  rcases requireData_cases data with hnone | hdata
  · have hmemory : inMemory data = .error noData := by rw [inMemory, hnone]; rfl
    have hrun : Ran (buildData out data) w s (.error (.fault noData)) s := by
      rw [buildData, hnone]
      exact Ran.bind_error ran_lift_error
    rw [hmemory]
    refine ⟨fun f hf => ?_, nofun⟩
    cases hf
    exact ⟨s, hrun⟩
  · have hsame := sameBuild_build hname hmemoryName data
    rw [buildData_eq hdata]
    cases hfault : (build out.name data).fault with
    | some f =>
      rw [inMemory_of_fault hdata (hsame.fault.symm.trans hfault)]
      refine ⟨fun g hg => ?_, nofun⟩
      cases hg
      exact ⟨_, h.ran_of_fault hfault⟩
    | none =>
      have hmemoryFault := hsame.fault.symm.trans hfault
      obtain ⟨p, hp⟩ := parts_of_ok hfault
      obtain ⟨s', hrun⟩ := h.completes hpath hfault
      have htree := h.tree_eq hrun
      rw [inMemory_of_ok hdata hmemoryFault]
      refine ⟨nofun, fun memory hmemory => ?_⟩
      cases hmemory
      refine ⟨s', p, (build out.name data).files, hrun, hp, ?_, agrees_of_sameFile (hsame.files hfault), fun f hf => ?_,
        fun q hq => ?_, made_ensureDirectories h.makes⟩
      · rw [build, hp] at hmemoryFault ⊢
        rw [List.map_map]
        exact names_of_ok hmemoryFault
      · rw [htree]
        exact Tree.find?_putFiles_of_mem hf nodup_build _
      · rw [htree]
        exact Tree.find?_putFiles_of_forall_ne hq _

def plainData : Value := .record [("plugin", .record [("internal_name", str "p"), ("name", str "p"),
  ("description", str "d"), ("author", str "a"), ("version", str "1")])]

theorem plainData_fault : (build memoryDirectory plainData).fault = none := by
  rw [← Option.isNone_iff_eq_none]
  decide +kernel

def topPath (name : Text) : Path := ⟨"/", [name]⟩

def withDirectory (name : Text) : Session := { Session.start .empty [] with tree := Tree.empty.put [name] .directory }

theorem fresh_topPath (hback : name ≠ Path.back) (hsize : byteSize name ≤ greatestName)
    (hpath : pathObstacle? (topPath name) = none)
    (hroom : ∀ n ∈ fileNames, pathObstacle? ((topPath name).child n) = none) :
    Fresh emptyMachine (.start .empty []) (topPath name) (withDirectory name) [name] :=
  @fresh_of_missing emptyMachine (.start .empty []) ⟨"/", []⟩ [] name hback hsize hpath hroom rfl rfl fun _ => rfl

theorem fresh_out : Fresh emptyMachine (.start .empty []) (topPath "out") (withDirectory "out") ["out"] :=
  fresh_topPath (by decide) (by decide) (by decide) (by decide)

theorem plainData_agrees :
    Fresh emptyMachine (.start .empty []) (topPath "out") (withDirectory "out") ["out"] ∧
      Text.checkUtf8 (topPath "out").text = .ok () ∧
      ∃ memory s' files, inMemory plainData = .ok memory ∧
        Completes (buildData (topPath "out") plainData) emptyMachine (.start .empty []) () s' ∧
        memory.map Prod.fst = [manifestName, moduleName, readmeName] ∧ List.Forall₂ (Agrees "out") files memory ∧
        ∀ f ∈ files, s'.tree.find? ["out", f.1] = some (.file (.text f.2)) := by
  have hutf8 : Text.checkUtf8 (topPath "out").text = .ok () := rfl
  have hmemory := inMemory_of_ok rfl plainData_fault
  obtain ⟨s', p, files, hrun, hp, hnames, hagrees, hfiles, -, -⟩ := (buildData_agrees fresh_out hutf8).2 _ hmemory
  cases hp
  exact ⟨fresh_out, hutf8, _, s', files, hmemory, hrun, hnames, hagrees, hfiles⟩

/-- A name of a directory that stands for a byte and has no UTF-8 form. -/
def byteName : Text := [.surrogate 1279]

/-- Such a directory can be made, and the build in memory is completed, but not the build into the directory. -/
theorem byteName_disagrees :
    Fresh emptyMachine (.start .empty []) (topPath byteName) (withDirectory byteName) [byteName] ∧
      (∃ memory, inMemory plainData = .ok memory) ∧
      ∃ f s', Ran (buildData (topPath byteName) plainData) emptyMachine (.start .empty []) (.error (.fault f)) s' := by
  have hfresh : Fresh emptyMachine (.start .empty []) (topPath byteName) (withDirectory byteName) [byteName] :=
    fresh_topPath (by decide) (by decide) (by decide) (by decide)
  have hbyte : ¬ Encodable byteName := fun h => absurd (h _ List.mem_cons_self) (by decide)
  obtain ⟨f, hf⟩ := fault_of_not_encodable hbyte plainData_fault
  exact ⟨hfresh, ⟨_, inMemory_of_ok rfl plainData_fault⟩, f, _, hfresh.ran_of_fault hf⟩

end PluginKit.Package
