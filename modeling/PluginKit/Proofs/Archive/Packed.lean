import PluginKit.Archive.Pack
import PluginKit.Proofs.Console.Stops
import PluginKit.Proofs.Files.Proper

/-!
# What is packed

Packing a plugin writes one file, the archive, and says what is in it (`completes_pack_iff`). If the path to the plugin
leads through nothing that is left out, then the archive holds the files of the plugin on the way to which nothing is left
out (`pack_iff`). If it does lead through such a thing, the archive is empty, so copies of a plugin in two places can give
different archives (`archives_eq_iff`).
-/

namespace PluginKit.Archive

open Console Files List

variable {w : Surroundings} {s s' : Session} {t : Tree} {directory path target : Path} {output : Option Path}
  {name version : Text} {above place : List Text}
variable {parts : List Text} {packed : List (Text × Content)} {parent : Text}

/-! ### Members -/

theorem leadsThroughIgnored_append (parts rest : List Text) :
    leadsThroughIgnored (parts ++ rest) = (leadsThroughIgnored parts || leadsThroughIgnored rest) := any_append

/-- How an archive names the file to which parts lead. -/
def label (name : Text) (parts : List Text) : Text := name ++ "/" ++ Text.join "/" parts

/-- The files among the entries below a place on the way to which nothing is left out. -/
def kept (entries : List (List Text × Entry)) : List (List Text × Content) :=
  entries.filterMap fun
    | (parts, .file content) => if leadsThroughIgnored parts then none else some (parts, content)
    | (_, .directory) => none

def labelled (name : Text) (rows : List (List Text × Content)) : List (Text × Content) :=
  rows.map fun row => (label name row.1, row.2)

/-- What lies behind something that is left out is left out; elsewhere only the way from the directory counts. -/
theorem members_eq (name : Text) (above : List Text) (entries : List (List Text × Entry)) :
    members name above entries = if leadsThroughIgnored above then [] else labelled name (kept entries) := by
  unfold members labelled kept
  split
  · next habove =>
    rw [filterMap_eq_nil_iff]
    rintro ⟨parts, e⟩ -
    cases e with
    | directory => rfl
    | file content => simp [leadsThroughIgnored_append, habove]
  · next habove =>
    rw [map_filterMap]
    refine filterMap_congr ?_
    rintro ⟨parts, e⟩ -
    cases e with
    | directory => rfl
    | file content =>
      simp only [leadsThroughIgnored_append, Bool.not_eq_true _ ▸ habove, Bool.false_or]
      split <;> rfl

/-- The files below a place on the way to which nothing is left out, each once and in the order of their paths. -/
structure IsListing (t : Tree) (place : List Text) (rows : List (List Text × Content)) : Prop where
  mem_iff : ∀ parts content, (parts, content) ∈ rows ↔
    parts ≠ [] ∧ t.find? (place ++ parts) = some (.file content) ∧ ∀ part ∈ parts, isIgnored part = false
  order : (rows.map Prod.fst).Pairwise (· < ·)

theorem leadsThroughIgnored_eq_false_iff :
    leadsThroughIgnored parts = false ↔ ∀ part ∈ parts, isIgnored part = false := by
  simp [leadsThroughIgnored]

theorem mem_kept_iff {entries : List (List Text × Entry)} {content : Content} :
    (parts, content) ∈ kept entries ↔ (parts, .file content) ∈ entries ∧ leadsThroughIgnored parts = false := by
  unfold kept
  rw [mem_filterMap]
  constructor
  · rintro ⟨⟨parts', e⟩, hmem, hkept⟩
    cases e with
    | directory => cases hkept
    | file content' =>
      dsimp only at hkept
      split at hkept
      · cases hkept
      · next hparts =>
        cases hkept
        exact ⟨hmem, by simpa using hparts⟩
  · rintro ⟨hmem, hparts⟩
    exact ⟨_, hmem, by simp [hparts]⟩

theorem sublist_kept (entries : List (List Text × Entry)) :
    ((kept entries).map Prod.fst).Sublist (entries.map Prod.fst) := by
  induction entries with
  | nil => exact List.Sublist.slnil
  | cons x entries ih =>
    obtain ⟨parts, e⟩ := x
    unfold kept at ih ⊢
    rw [filterMap_cons]
    split
    · exact ih.cons _
    · next row hrow =>
      have hparts : row.1 = parts := by
        cases e with
        | directory => cases hrow
        | file content =>
          dsimp only at hrow
          split at hrow
          · cases hrow
          · cases hrow
            rfl
      rw [map_cons, map_cons, hparts]
      exact ih.cons_cons _

theorem isListing_kept (ht : t.Proper) (place : List Text) : IsListing t place (kept (t.below place)) := by
  refine ⟨fun parts content => ?_, (ht.pairwise_lt_below place).sublist (sublist_kept _)⟩
  rw [mem_kept_iff, ht.mem_below_iff, leadsThroughIgnored_eq_false_iff, and_assoc]

theorem IsListing.unique {rows rows' : List (List Text × Content)} (h : IsListing t place rows)
    (h' : IsListing t place rows') : rows = rows' := by
  refine eq_of_pairwise_lt h.order h'.order ?_
  rintro ⟨parts, content⟩
  rw [h.mem_iff, h'.mem_iff]

/-! ### Packing -/

theorem looks_pluginVersion (directory : Path) : Looks (pluginVersion directory) := by
  have hmanifest : Looks (manifestVersion (directory.child Package.manifestName)) := by
    refine (looks_readText _).bind fun text => ?_
    split
    · exact looks_fail _
    · exact looks_lift _
  refine (looks_exists? _).bind fun found => ?_
  split
  · refine hmanifest.attempt.bind fun o => ?_
    split
    · exact looks_lift _
    · exact looks_pure _
  · exact looks_pure _

/-- The archive goes to a place outside the directory of the plugin. -/
def GoesOutside (w : Surroundings) (s : Session) (directory : Path) (output : Option Path) : Prop :=
  ∀ version place, Completes (pluginVersion directory) w s version s →
    s.tree.locate w.directory (archivePath directory version output) = .ok place → ¬ directory.parts <+: place

def greeting (directory target : Path) (version : Text) : List Text :=
  [Text.ofString "\n📦 正在打包插件：" ++ directory.name ++ " v" ++ version, Text.ofString "📂 源目录：" ++ directory.text,
    Text.ofString "📄 输出文件：" ++ target.text ++ "\n"]

def listing (packed : List (Text × Content)) : List Text := packed.map fun m => Text.ofString "  + " ++ m.1

/-- What is said after packing: how many files there are in the archive, its size and its path. -/
def farewell (target : Path) (packed : List (Text × Content)) : List Text :=
  [Text.ofString s!"\n✅ 打包完成！共 {packed.length} 个文件，大小：" ++
      kilobytes (contentBytes (.archive packed)).length ++ " KB",
    Text.ofString "📦 输出文件：" ++ target.text ++ "\n"]

def report (directory target : Path) (version : Text) (packed : List (Text × Content)) : List Text :=
  greeting directory target version ++ listing packed ++ farewell target packed

theorem completes_packInto_iff (hdirectory : s.tree.locate w.directory directory = .ok directory.parts)
    (hout : ∀ place, s.tree.locate w.directory target = .ok place → ¬ directory.parts <+: place) :
    Completes (packInto directory target) w s packed s' ↔
      packed = members directory.name directory.parts (s.tree.below directory.parts) ∧
      ∃ place, s.tree.locate w.directory target = .ok place ∧ s.tree.find? place ≠ some .directory ∧
        (∀ line ∈ listing packed, Encodable line) ∧
        s' = { s.saying (listing packed) with tree := s.tree.put place (.file (.archive packed)) } := by
  -- Emptying the file for the archive moves neither the directory nor the file, nor what is below the directory.
  have hemptied {place : List Text} (hplace : s.tree.locate w.directory target = .ok place)
      (hfree : s.tree.find? place ≠ some .directory) :
      (s.tree.put place (.file (.text ""))).locate w.directory directory = .ok directory.parts ∧
        (s.tree.put place (.file (.text ""))).locate w.directory target = .ok place ∧
        (s.tree.put place (.file (.text ""))).below directory.parts = s.tree.below directory.parts :=
    ⟨Tree.locate_put hfree hdirectory, Tree.locate_put hfree hplace, Tree.below_put (hout place hplace) _ _⟩
  constructor
  · intro h
    obtain ⟨u, s₁, hwrite, hwritten⟩ := completes_bind_iff.mp h
    obtain ⟨place, hplace, hfree, rfl⟩ := completes_writeFile_iff.mp hwrite
    obtain ⟨hdirectory', hplace', hbelow'⟩ := hemptied hplace hfree
    obtain ⟨entries, s₂, hbelow, hlisted⟩ := completes_bind_iff.mp hwritten
    obtain ⟨rfl, rfl⟩ := (completes_below_iff hdirectory').mp hbelow
    rw [hbelow'] at hlisted
    obtain ⟨v, s₃, hsay, hsaid⟩ := completes_bind_iff.mp hlisted
    obtain ⟨hlines, rfl⟩ := completes_sayAll_iff.mp hsay
    obtain ⟨v', s₄, hlast, hpure⟩ := completes_bind_iff.mp hsaid
    obtain ⟨place', hplace'', -, rfl⟩ := completes_writeFile_iff.mp hlast
    cases hplace'.symm.trans hplace''
    obtain ⟨rfl, rfl⟩ := completes_pure_iff.mp hpure
    refine ⟨rfl, place, hplace, hfree, hlines, ?_⟩
    exact congrArg (fun t => ({ s.saying (listing _) with tree := t } : Session)) (Tree.put_put s.tree place _ _)
  · rintro ⟨rfl, place, hplace, hfree, hlines, rfl⟩
    obtain ⟨hdirectory', hplace', hbelow'⟩ := hemptied hplace hfree
    have hne : place ≠ [] := by
      rintro rfl
      exact hfree rfl
    have hfile : (s.tree.put place (.file (.text ""))).find? place ≠ some .directory := by
      rw [Tree.find?_put_self hne]
      exact fun h => by cases h
    refine Completes.bind (a := ()) (completes_writeFile_iff.mpr ⟨place, hplace, hfree, rfl⟩)
      (Completes.bind (completes_below_of hdirectory') ?_)
    rw [hbelow']
    refine Completes.bind (a := ()) (completes_sayAll_iff.mpr ⟨hlines, rfl⟩) (Completes.bind (a := ())
      (completes_writeFile_iff.mpr ⟨place, hplace', hfile, rfl⟩) (completes_pure_iff.mpr ⟨rfl, ?_⟩))
    exact congrArg (fun t => ({ s.saying (listing _) with tree := t } : Session)) (Tree.put_put s.tree place _ _)

theorem completes_pluginVersion {s' : Session} (h : Completes (pluginVersion directory) w s version s') : s' = s :=
  looks_pluginVersion directory _ _ _ _ h

/-- The archive with such members can be written at a place, and all can be said about it. -/
structure Packable (w : Surroundings) (s : Session) (directory : Path) (output : Option Path) (version : Text)
    (place : List Text) (packed : List (Text × Content)) : Prop where
  reads : Completes (pluginVersion directory) w s version s
  located : s.tree.locate w.directory (archivePath directory version output) = .ok place
  free : s.tree.find? place ≠ some .directory
  sayable : ∀ line ∈ report directory (archivePath directory version output) version packed, Encodable line

theorem Packable.find?_put (h : Packable w s directory output version place packed) :
    (s.tree.put place (.file (.archive packed))).find? place = some (.file (.archive packed)) := by
  refine Tree.find?_put_self ?_ _ _
  rintro rfl
  exact h.free rfl

theorem encodable_report (hname : Encodable directory.name) (hversion : Encodable version)
    (hdirectory : Encodable directory.text) (htarget : Encodable target.text) (hpacked : ∀ m ∈ packed, Encodable m.1) :
    ∀ line ∈ report directory target version packed, Encodable line := by
  simp only [report, greeting, listing, farewell, forall_mem_append, forall_mem_cons, forall_mem_map]
  refine ⟨⟨⟨?_, (encodable_ofString _).append hdirectory, ?_, forall_mem_nil _⟩, ?_⟩, ?_, ?_, forall_mem_nil _⟩
  · simp [hname, hversion]
  · simp [htarget]
  · exact fun m hm => (encodable_ofString _).append (hpacked m hm)
  · simp [kilobytes]
  · simp [htarget]

/-- A path leads to the directory of a plugin, and the archive goes to a place outside this directory. -/
structure Site (w : Surroundings) (s : Session) (path : Path) (output : Option Path) (directory : Path) : Prop where
  proper : s.tree.Proper
  resolved : Completes (Session.resolve path) w s directory s
  found : DirectoryAt w s.tree directory
  outside : GoesOutside w s directory output

/-- **Packing a plugin** outside its directory is completed exactly if the archive can be written and everything can be
said; and then the archive is all that is written. -/
theorem completes_pack_iff (hsite : Site w s path output directory) :
    Completes (pack path output) w s () s' ↔ ∃ version place packed,
      packed = members directory.name directory.parts (s.tree.below directory.parts) ∧
      Packable w s directory output version place packed ∧
      s' = { s.saying (report directory (archivePath directory version output) version packed) with
        tree := s.tree.put place (.file (.archive packed)) } := by
  have hplace : s.tree.locate w.directory directory = .ok directory.parts := by
    obtain ⟨place, hlocate, -⟩ := hsite.found
    obtain ⟨rfl, -⟩ := completes_resolve hsite.resolved
    rw [hlocate, Tree.locate_absolute (Tree.back_not_mem_collapse _) hlocate]
    rfl
  unfold pack
  rw [hsite.resolved.bind_iff, hsite.found.completes_isDirectory.bind_iff, if_pos rfl]
  have hfinal (version : Text) (packed : List (Text × Content)) :
      (((s.saying (greeting directory (archivePath directory version output) version)).saying (listing packed)).saying
        [Text.ofString s!"\n✅ 打包完成！共 {packed.length} 个文件，大小：" ++
          kilobytes (contentBytes (.archive packed)).length ++ " KB"]).saying
        [Text.ofString "📦 输出文件：" ++ (archivePath directory version output).text ++ "\n"] =
      s.saying (report directory (archivePath directory version output) version packed) := by
    simp only [Session.saying_saying, report, farewell, append_assoc, cons_append, nil_append]
  -- All that is said before the archive is begun leaves the files alone.
  have hpacks (version : Text) (lines : List Text) (hversion : Completes (pluginVersion directory) w s version s) :
      ∀ packed s', Completes (packInto directory (archivePath directory version output)) w (s.saying lines) packed s' ↔ _ :=
    fun packed s' => completes_packInto_iff hplace fun place hlocate => hsite.outside version place hversion hlocate
  constructor
  · intro h
    obtain ⟨version, s₁, hversion, hsaying⟩ := completes_bind_iff.mp h
    obtain rfl := (completes_pluginVersion hversion).symm
    simp only [completes_say_bind_iff, Session.saying_saying] at hsaying
    obtain ⟨hline₁, hline₂, hline₃, hpacking⟩ := hsaying
    obtain ⟨packed, s₂, hpacked, hleaving⟩ := completes_bind_iff.mp hpacking
    obtain ⟨hmembers, place, hlocate, hfree, hlines, rfl⟩ := (hpacks version _ hversion packed s₂).mp hpacked
    obtain ⟨hline₄, hlast⟩ := completes_say_bind_iff.mp hleaving
    obtain ⟨hline₅, rfl⟩ := completes_say_iff_saying.mp hlast
    refine ⟨version, place, packed, hmembers, ⟨hversion, hlocate, hfree, ?_⟩, ?_⟩
    · simp only [report, greeting, farewell, forall_mem_append, forall_mem_cons]
      exact ⟨⟨⟨hline₁, hline₂, hline₃, forall_mem_nil _⟩, hlines⟩, hline₄, hline₅, forall_mem_nil _⟩
    · exact congrArg (fun s₁ => ({ s₁ with tree := s.tree.put place (.file (.archive packed)) } : Session))
        (hfinal version packed)
  · rintro ⟨version, place, packed, hmembers, h, rfl⟩
    have hsayable := h.sayable
    simp only [report, greeting, farewell, forall_mem_append, forall_mem_cons] at hsayable
    obtain ⟨⟨⟨hline₁, hline₂, hline₃, -⟩, hlines⟩, hline₄, hline₅, -⟩ := hsayable
    have hpacked := (hpacks version (greeting directory (archivePath directory version output) version) h.reads packed _).mpr
      ⟨hmembers, place, h.located, h.free, hlines, rfl⟩
    rw [h.reads.bind_iff]
    simp only [completes_say_bind_iff, Session.saying_saying]
    refine ⟨hline₁, hline₂, hline₃, hpacked.bind_iff.mpr (completes_say_bind_iff.mpr ⟨hline₄, ?_⟩)⟩
    refine completes_say_iff_saying.mpr ⟨hline₅, ?_⟩
    exact congrArg (fun s₁ => ({ s₁ with tree := s.tree.put place (.file (.archive packed)) } : Session))
      (hfinal version packed).symm

/-- **The archive holds exactly the plugin.** If the path to the plugin leads through nothing that is left out, the
members are the files of the plugin on the way to which nothing is left out. -/
theorem pack_exactly (hsite : Site w s path output directory) (hclean : leadsThroughIgnored directory.parts = false) :
    Completes (pack path output) w s () s' ↔ ∃ version place rows, IsListing s.tree directory.parts rows ∧
      Packable w s directory output version place (labelled directory.name rows) ∧
      s' = { s.saying (report directory (archivePath directory version output) version (labelled directory.name rows)) with
        tree := s.tree.put place (.file (.archive (labelled directory.name rows))) } := by
  have hmembers : members directory.name directory.parts (s.tree.below directory.parts) =
      labelled directory.name (kept (s.tree.below directory.parts)) := by
    rw [members_eq, if_neg (by simp [hclean])]
  rw [completes_pack_iff hsite]
  constructor
  · rintro ⟨version, place, packed, rfl, hpackable, rfl⟩
    rw [hmembers] at hpackable ⊢
    exact ⟨version, place, _, isListing_kept hsite.proper _, hpackable, rfl⟩
  · rintro ⟨version, place, rows, hrows, hpackable, rfl⟩
    obtain rfl := hrows.unique (isListing_kept hsite.proper _)
    exact ⟨version, place, _, hmembers.symm, hpackable, rfl⟩

/-! ### Where the archive goes -/

/-- Without a slash in the version, the archive goes beside the directory of the plugin. -/
theorem goesOutside_none {parent : List Text} (hback : Path.back ∉ parent) (hname : CodePoint.scalar '/' ∉ name)
    (hversion : ∀ version, Completes (pluginVersion (.absolute (parent ++ [name]))) w s version s →
      CodePoint.scalar '/' ∉ version) :
    GoesOutside w s (.absolute (parent ++ [name])) none := by
  intro version place hreads hlocate hinside
  have hfile : archivePath (.absolute (parent ++ [name])) version none =
      (Path.absolute parent).child (name ++ "-v" ++ version ++ ".zip") := by
    simp [archivePath, Path.name, Path.parent, Path.absolute]
  have hlength : name.length + 6 ≤ (name ++ "-v" ++ version ++ ".zip").length := by
    have hends : (Text.ofString "-v").length = 2 ∧ (Text.ofString ".zip").length = 4 := by decide
    simp only [length_append, hends]
    omega
  have hslash : CodePoint.scalar '/' ∉ name ++ "-v" ++ version ++ ".zip" := by
    have hends : CodePoint.scalar '/' ∉ Text.ofString "-v" ∧ CodePoint.scalar '/' ∉ Text.ofString ".zip" := by
      decide
    simp only [mem_append, not_or]
    exact ⟨⟨⟨hname, hends.1⟩, hversion version hreads⟩, hends.2⟩
  generalize name ++ "-v" ++ version ++ ".zip" = file at hfile hlength hslash
  have hplain : Tree.PlainPart file := by
    have hdots : (Text.ofString ".").length = 1 ∧ Path.back.length = 2 := by decide
    refine .of_not_mem hslash ?_ ?_ ?_
    all_goals
      rintro rfl
      simp only [length_nil, hdots] at hlength
      omega
  have hplace : place = parent ++ [file] := by
    rw [hfile, Tree.child_eq hplain] at hlocate
    refine Tree.locate_absolute ?_ hlocate
    simpa using ⟨hback, Ne.symm hplain.back⟩
  rw [hplace] at hinside
  have hsame : [name] <+: [file] := (prefix_append_right_inj parent).mp hinside
  have hlast := singleton_inj.mp (hsame.eq_of_length rfl)
  rw [← hlast] at hlength
  omega

/-- A plugin with a directory and with something that is left out. -/
def cachedPlugin : Tree :=
  ⟨[(["p"], .directory), (["p", "sub"], .directory), (["p", "sub", "b"], .file (.text "y")),
    (["p", "plugin.py"], .file (.text "x")), (["p", "__pycache__"], .directory),
    (["p", "__pycache__", "c"], .file (.bytes [0]))]⟩

def plainMachine : Surroundings := ⟨[], ⟨"", []⟩, false, true, 2024, true, fun _ => none⟩

theorem completes_pluginVersion_of {t : Tree} (h : completesWith (pluginVersion directory) plainMachine (.start t [])
    (fun read => read == version) = true) :
    Completes (pluginVersion directory) plainMachine (.start t []) version (.start t []) := by
  obtain ⟨read, s', hcompletes, hread⟩ := exists_of_completesWith h
  obtain rfl := beq_iff_eq.mp hread
  obtain rfl := completes_pluginVersion hcompletes
  exact hcompletes

theorem cachedPlugin_packed : ∃ s', Completes (pack ⟨"", ["p"]⟩ none) plainMachine (.start cachedPlugin []) () s' ∧
    s'.tree.find? ["p-v1.0.0.zip"] = some (.file (.archive [("p/plugin.py", .text "x"), ("p/sub/b", .text "y")])) := by
  have hreads : Completes (pluginVersion (.absolute ["p"])) plainMachine (.start cachedPlugin []) defaultVersion
      (.start cachedPlugin []) := completes_pluginVersion_of (by decide +kernel)
  have hproper : cachedPlugin.Proper := Tree.proper_of_entries (by decide +kernel) (by decide +kernel)
  have houtside : GoesOutside plainMachine (.start cachedPlugin []) (.absolute ["p"]) none := by
    refine @goesOutside_none plainMachine (.start cachedPlugin []) "p" [] List.not_mem_nil (by decide +kernel) ?_
    intro version hversion
    obtain ⟨rfl, -⟩ := hversion.unique hreads
    decide +kernel
  have hsite : Site plainMachine (.start cachedPlugin []) ⟨"", ["p"]⟩ none (.absolute ["p"]) :=
    ⟨hproper, rfl, ⟨["p"], by decide +kernel, rfl⟩, houtside⟩
  have hrows : IsListing cachedPlugin ["p"] [(["plugin.py"], .text "x"), (["sub", "b"], .text "y")] :=
    isListing_kept hproper ["p"]
  have hlabelled : labelled (Path.absolute ["p"]).name [(["plugin.py"], .text "x"), (["sub", "b"], .text "y")] =
      ([("p/plugin.py", .text "x"), ("p/sub/b", .text "y")] : List (Text × Content)) := by
    have hlabels : label "p" ["plugin.py"] = "p/plugin.py" ∧ label "p" ["sub", "b"] = "p/sub/b" := by decide +kernel
    show [(label "p" ["plugin.py"], _), (label "p" ["sub", "b"], _)] = _
    rw [hlabels.1, hlabels.2]
  have hpackable : Packable plainMachine (.start cachedPlugin []) (.absolute ["p"]) none defaultVersion ["p-v1.0.0.zip"]
      (labelled (Path.absolute ["p"]).name [(["plugin.py"], .text "x"), (["sub", "b"], .text "y")]) := by
    refine ⟨hreads, by decide +kernel, fun h => (by cases h), ?_⟩
    rw [hlabelled]
    refine encodable_report (encodable_ofString _) (encodable_ofString _) ?_ ?_ ?_
    · unfold Encodable
      decide +kernel
    · unfold Encodable
      decide +kernel
    · simp only [List.forall_mem_cons]
      exact ⟨encodable_ofString _, encodable_ofString _, List.forall_mem_nil _⟩
  refine ⟨_, (pack_exactly hsite (by decide +kernel)).mpr ⟨_, _, _, hrows, hpackable, rfl⟩, ?_⟩
  rw [← hlabelled]
  exact hpackable.find?_put

/-! ### Copies -/

/-- Packing is completed and leaves an archive with such members. -/
def Packs (w : Surroundings) (s : Session) (path : Path) (output : Option Path) (directory : Path)
    (packed : List (Text × Content)) : Prop :=
  ∃ version place s', Completes (pack path output) w s () s' ∧ Completes (pluginVersion directory) w s version s ∧
    s.tree.locate w.directory (archivePath directory version output) = .ok place ∧
    s'.tree.find? place = some (.file (.archive packed))

theorem Site.packs_iff (hsite : Site w s path output directory) :
    Packs w s path output directory packed ↔
      packed = members directory.name directory.parts (s.tree.below directory.parts) ∧
        ∃ version place, Packable w s directory output version place packed := by
  constructor
  · rintro ⟨version, place, s', h, hreads, hlocate, hfind⟩
    obtain ⟨version', place', packed', hmembers, hpackable, rfl⟩ := (completes_pack_iff hsite).mp h
    obtain ⟨rfl, -⟩ := hreads.unique hpackable.reads
    cases hlocate.symm.trans hpackable.located
    rw [hpackable.find?_put] at hfind
    cases hfind
    exact ⟨hmembers, version, place, hpackable⟩
  · rintro ⟨hmembers, version, place, hpackable⟩
    exact ⟨version, place, _, (completes_pack_iff hsite).mpr ⟨version, place, packed, hmembers, hpackable, rfl⟩,
      hpackable.reads, hpackable.located, hpackable.find?_put⟩

/-- **Copies of a plugin** in two places give the same archive exactly if none or both of the paths to them lead through
something that is left out, or if there is nothing to pack. -/
theorem archives_eq_iff {w₁ w₂ : Surroundings} {s₁ s₂ : Session} {path₁ path₂ directory₁ directory₂ : Path}
    {output₁ output₂ : Option Path} {packed₁ packed₂ : List (Text × Content)}
    (hsite₁ : Site w₁ s₁ path₁ output₁ directory₁) (hsite₂ : Site w₂ s₂ path₂ output₂ directory₂)
    (hname : directory₁.name = directory₂.name)
    (hcopy : ∀ parts, parts ≠ [] → s₁.tree.find? (directory₁.parts ++ parts) = s₂.tree.find? (directory₂.parts ++ parts))
    (h₁ : Packs w₁ s₁ path₁ output₁ directory₁ packed₁) (h₂ : Packs w₂ s₂ path₂ output₂ directory₂ packed₂) :
    packed₁ = packed₂ ↔ leadsThroughIgnored directory₁.parts = leadsThroughIgnored directory₂.parts ∨
      IsListing s₁.tree directory₁.parts [] := by
  have hbelow := (hsite₁.proper.below_eq_iff hsite₂.proper).mpr hcopy
  have hlisting := isListing_kept hsite₁.proper directory₁.parts
  have hnone : IsListing s₁.tree directory₁.parts [] ↔ labelled directory₁.name (kept (s₁.tree.below directory₁.parts)) = [] := by
    rw [labelled, List.map_eq_nil_iff]
    refine ⟨fun h => hlisting.unique h, fun h => ?_⟩
    rw [h] at hlisting
    exact hlisting
  rw [(hsite₁.packs_iff.mp h₁).1, (hsite₂.packs_iff.mp h₂).1, members_eq, members_eq, ← hbelow, ← hname, hnone]
  generalize labelled directory₁.name (kept (s₁.tree.below directory₁.parts)) = packed
  cases leadsThroughIgnored directory₁.parts with
  | false =>
    cases leadsThroughIgnored directory₂.parts with
    | false => simp
    | true => simp
  | true =>
    cases leadsThroughIgnored directory₂.parts with
    | false =>
      rw [if_pos rfl, if_neg Bool.false_ne_true, eq_comm]
      simp
    | true => simp

def shortManifest : Text := "\x7b\"version\": \"1\"\x7d"

/-- Two copies of a plugin, one of them in a directory with a name that is left out. -/
def twoCopies : Tree :=
  ⟨[(["a.log"], .directory), (["a.log", "p"], .directory), (["a.log", "p", "plugin.py"], .file (.text "x")),
    (["a.log", "p", "_manifest.json"], .file (.text shortManifest)), (["b"], .directory), (["b", "p"], .directory),
    (["b", "p", "plugin.py"], .file (.text "x")), (["b", "p", "_manifest.json"], .file (.text shortManifest))]⟩

def copyIn (parent : Text) : Path := .absolute [parent, "p"]

theorem proper_twoCopies : twoCopies.Proper := Tree.proper_of_entries (by decide) (by decide)

theorem twoCopies_agree : ∀ parts, parts ≠ [] →
    twoCopies.find? ((copyIn "a.log").parts ++ parts) = twoCopies.find? ((copyIn "b").parts ++ parts) :=
  (proper_twoCopies.below_eq_iff proper_twoCopies).mp rfl

theorem reads_twoCopies (h : parent = "a.log" ∨ parent = "b") :
    Completes (pluginVersion (copyIn parent)) plainMachine (.start twoCopies []) "1" (.start twoCopies []) := by
  rcases h with rfl | rfl
  · exact completes_pluginVersion_of (by decide)
  · exact completes_pluginVersion_of (by decide)

theorem site_twoCopies (h : parent = "a.log" ∨ parent = "b") :
    Site plainMachine (.start twoCopies []) (copyIn parent) none (copyIn parent) where
  proper := proper_twoCopies
  resolved := by rcases h with rfl | rfl <;> rfl
  found := by
    refine ⟨(copyIn parent).parts, ?_, ?_⟩
    · rcases h with rfl | rfl <;> decide
    · rcases h with rfl | rfl <;> rfl
  outside := by
    refine @goesOutside_none plainMachine (.start twoCopies []) "p" [parent] ?_ (by decide) ?_
    · rcases h with rfl | rfl <;> decide
    · intro version hversion
      obtain ⟨rfl, -⟩ := hversion.unique (reads_twoCopies h)
      decide

theorem packs_twoCopies (h : parent = "a.log" ∨ parent = "b")
    (hpacked : packed = members "p" (copyIn parent).parts (twoCopies.below (copyIn parent).parts))
    (hnames : ∀ m ∈ packed, Encodable m.1) :
    Packs plainMachine (.start twoCopies []) (copyIn parent) none (copyIn parent) packed := by
  refine (site_twoCopies h).packs_iff.mpr ⟨hpacked, "1", [parent, "p-v1.zip"], reads_twoCopies h, ?_, ?_, ?_⟩
  · rcases h with rfl | rfl <;> decide
  · rcases h with rfl | rfl <;> exact fun hfind => (by cases hfind)
  · refine encodable_report (encodable_ofString _) (encodable_ofString _) ?_ ?_ hnames
    · unfold Encodable
      rcases h with rfl | rfl <;> decide
    · unfold Encodable
      rcases h with rfl | rfl <;> decide

/-- The copy below the name that is left out gives an empty archive. -/
theorem logs_empty_archive :
    (∀ parts, parts ≠ [] →
      twoCopies.find? ((copyIn "a.log").parts ++ parts) = twoCopies.find? ((copyIn "b").parts ++ parts)) ∧
    Packs plainMachine (.start twoCopies []) (copyIn "a.log") none (copyIn "a.log") [] ∧
    Packs plainMachine (.start twoCopies []) (copyIn "b") none (copyIn "b")
      [("p/_manifest.json", .text shortManifest), ("p/plugin.py", .text "x")] := by
  refine ⟨twoCopies_agree, packs_twoCopies (.inl rfl) rfl (List.forall_mem_nil _), packs_twoCopies (.inr rfl) ?_ ?_⟩
  · have hlabels : label "p" ["_manifest.json"] = "p/_manifest.json" ∧ label "p" ["plugin.py"] = "p/plugin.py" := by
      decide +kernel
    show _ = [(label "p" ["_manifest.json"], _), (label "p" ["plugin.py"], _)]
    rw [hlabels.1, hlabels.2]
  · simp only [List.forall_mem_cons]
    exact ⟨encodable_ofString _, encodable_ofString _, List.forall_mem_nil _⟩

theorem twoCopies_differ : ∃ packed₁ packed₂,
    Packs plainMachine (.start twoCopies []) (copyIn "a.log") none (copyIn "a.log") packed₁ ∧
    Packs plainMachine (.start twoCopies []) (copyIn "b") none (copyIn "b") packed₂ ∧ packed₁ ≠ packed₂ := by
  have hnames : ∀ m ∈ members "p" (copyIn "b").parts (twoCopies.below (copyIn "b").parts), Encodable m.1 := by
    unfold Encodable
    decide +kernel
  have hlogs := packs_twoCopies (.inl rfl) rfl (List.forall_mem_nil _)
  have hb := packs_twoCopies (.inr rfl) rfl hnames
  refine ⟨_, _, hlogs, hb, fun heq => ?_⟩
  rcases (archives_eq_iff (site_twoCopies (.inl rfl)) (site_twoCopies (.inr rfl)) rfl twoCopies_agree hlogs hb).mp heq with
    hleads | hnone
  · exact absurd hleads (by decide +kernel)
  · have hmem := (hnone.mem_iff ["plugin.py"] (.text "x")).mpr ⟨by simp, rfl, by decide +kernel⟩
    exact absurd hmem List.not_mem_nil

end PluginKit.Archive
