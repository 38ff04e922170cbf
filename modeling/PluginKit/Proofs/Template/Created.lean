import PluginKit.Proofs.Template.Ready

/-!
# Manifests of created plugins

The manifest of a new plugin is filled as text and then updated as JSON. It says what was asked for exactly if the filled
text is still JSON with the keys of the template and what was put into it can be written (`create_says_iff`). Facts that
stand for themselves between quotes make sure of that, and with them a creation completes. A double quote in the
description is enough to spoil it (`quotedDescription_spoils`).
-/

namespace PluginKit.Template

open Console Files

variable {w : Surroundings} {s s' : Session} {f : Facts} {target : List Text} {t' : Tree} {k : Kind} {r : Reading}
  {arguments : List Text}

/-! ### Templates that are there -/

/-- A file of a template as it stands in the directory of the template. -/
def File.entry (file : File) : List Text × Entry := ([file.name], .file (.text file.text))

/-- The directory of a template holds its files and nothing else. -/
def Shelved (w : Surroundings) (t : Tree) (k : Kind) : Prop :=
  ∃ source, t.locate w.directory (w.templates.child k.key) = .ok source ∧
    ∀ x, x ∈ t.below source ↔ ∃ file ∈ k.files, x = file.entry

theorem Kind.name_manifest (k : Kind) : k.manifest.name = Package.manifestName := by
  cases k
  all_goals rfl

theorem find?_manifest {t : Tree} {source : List Text} (ht : t.Proper)
    (h : ∀ x, x ∈ t.below source ↔ ∃ file ∈ k.files, x = file.entry) :
    t.find? (source ++ [Package.manifestName]) = some (.file (.text k.manifest.text)) := by
  have hmem : k.manifest.entry ∈ t.below source := (h _).mpr ⟨k.manifest, k.manifest_mem, rfl⟩
  have hfind := (ht.mem_below_iff.mp hmem).2
  rw [k.name_manifest] at hfind
  exact hfind

/-- **The manifest that a creation leaves** is the one of the template, filled and updated. -/
theorem created_manifest {u : Unit} (hr : request arguments = .command .create r) (ht : s.tree.Proper)
    (hgives : (orderOf r).Gives w k f) (hfresh : ¬ Occupied w s.tree (orderOf r).directory)
    (hshelved : Shelved w s.tree k) (h : Completes (runArguments arguments) w s u s') :
    Script.isPluginName f.name = true ∧
      Holds w s'.tree ((orderOf r).directory.child Package.manifestName) (f.refreshed (f.filled k.manifest)) := by
  obtain ⟨hname, k', f', source, target, hsettled, hsource, -, hinstalled⟩ := completes_run_create hr ht hfresh h
  obtain ⟨rfl, rfl⟩ := hgives.eq_of_settled hsettled
  obtain ⟨source', hsource', hfiles⟩ := hshelved
  rw [hsource] at hsource'
  cases hsource'
  have hfind := find?_manifest ht hfiles
  refine ⟨by rw [hsettled.name]; exact hname, target ++ [Package.manifestName], ?_, ?_⟩
  · rw [Tree.child_eq plainPart_manifestName]
    exact hinstalled.reached _ _ _ (List.cons_ne_nil _ _) hfind rfl
  · rw [hinstalled.manifest, hfind]
    rfl

/-! ### Runs that complete -/

theorem encodable_bannerLines : ∀ line ∈ bannerLines, Encodable line := by simp [bannerLines]

theorem Ready.completes_run (h : Ready w k (orderOf r).directory s.tree t' target) (hf : Fits f t' target)
    (ht : s.tree.Proper) (hname : Script.isPluginName f.name = true) (hgives : (orderOf r).Gives w k f)
    (hr : request arguments = .command .create r) : ∃ s', Completes (runArguments arguments) w s () s' := by
  obtain ⟨s₁, hbanner⟩ := completes_sayAll_of (w := w) (s := s) encodable_bannerLines
  have htree := completes_sayAll hbanner
  rw [← htree] at h ht
  rw [hgives.name] at hname
  refine hbanner.exists_bind ?_
  rw [hr]
  exact h.completes_create hf ht hname hgives

theorem encodable_of_isLabelChar {c : CodePoint} (h : isLabelChar c = true) : c.isSurrogate = false :=
  forall_ascii (p := fun c => c.isSurrogate = false) (by decide) (lt_of_isLabelChar h)

/-- A text that can be written is filled with facts that can be written. -/
theorem encodable_fill (hname : Script.isPluginName f.name = true)
    (hwritten : Encodable f.description ∧ Encodable f.version ∧ Encodable f.author) {text : Text} (h : Encodable text) :
    Encodable (f.fill text) := by
  refine Facts.forall_fill (forall_replacements ?_ hname hwritten.1 hwritten.2.1 hwritten.2.2) h
  exact fun c => encodable_of_isLabelChar

theorem encodable_name (hname : Script.isPluginName f.name = true) : Encodable f.name :=
  fun c hc => encodable_of_isLabelChar (List.all_eq_true.mp (all_isLabelChar hname) c hc)

/-- Facts that can be written fit into the files of a template, if the filled manifest can be handled. -/
theorem fits_of_shelved {p : Path} (h : Ready w k p s.tree t' target) (ht : s.tree.Proper) (hparts : p.parts ≠ [])
    (hshelved : Shelved w s.tree k) (hname : Script.isPluginName f.name = true)
    (hwritten : Encodable f.description ∧ Encodable f.version ∧ Encodable f.author)
    (hhandles : f.Handles (Text.foldNewlines (f.filled k.manifest))) : Fits f t' target := by
  obtain ⟨source, hsource, -, hcopied⟩ := h.copied ht hparts
  obtain ⟨source', hsource', hfiles⟩ := hshelved
  rw [hsource] at hsource'
  cases hsource'
  refine ⟨encodable_name hname, ?_, ?_⟩
  · intro x hx c text hc hread
    obtain ⟨hne, hfind⟩ := hcopied.proper.mem_below_iff.mp hx
    rw [hcopied.same _ hne] at hfind
    obtain ⟨file, hfile, rfl⟩ := (hfiles x).mp (ht.mem_below_iff.mpr ⟨hne, hfind⟩)
    cases hc
    cases hread
    exact encodable_fill hname hwritten (encodable_foldNewlines (k.encodable_files file hfile))
  · refine ⟨.text k.manifest.text, _, ?_, rfl, hhandles⟩
    rw [hcopied.same _ (List.cons_ne_nil _ _)]
    exact find?_manifest ht hfiles

/-- **What the manifest of a created plugin says.** It says what was asked for, under the keys of the template, exactly
if the filled manifest can be read, updated and written and has the keys of the template; plain facts make sure of it,
and with them a creation that has room completes. -/
theorem create_says_iff (hr : request arguments = .command .create r) (ht : s.tree.Proper)
    (hgives : (orderOf r).Gives w k f) (hfresh : ¬ Occupied w s.tree (orderOf r).directory)
    (hshelved : Shelved w s.tree k) :
    (∀ s', Completes (runArguments arguments) w s () s' →
      ∃ text, Holds w s'.tree ((orderOf r).directory.child Package.manifestName) text ∧
        ((∃ v, Json.read (Text.foldNewlines text) = .ok v ∧ Says k f v) ↔
          ∃ v u, Json.read (Text.foldNewlines (f.filled k.manifest)) = .ok v ∧ f.update v = .ok u ∧ k.SameKeys u ∧
            (Package.jsonFile Package.manifestName u).fault = none) ∧
        (f.Plain → ∃ v, Json.read (Text.foldNewlines text) = .ok v ∧ Says k f v)) ∧
    (f.Plain → Script.isPluginName f.name = true → ∀ t' target,
      Ready w k (orderOf r).directory s.tree t' target → ∃ s', Completes (runArguments arguments) w s () s') := by
  constructor
  · intro s' h
    obtain ⟨hname, hholds⟩ := created_manifest hr ht hgives hfresh hshelved h
    refine ⟨_, hholds, Facts.says_refreshed_iff, fun hplain => ?_⟩
    exact Facts.says_refreshed_iff.mpr (hplain.updates hname k)
  · intro hplain hname t' target hready
    have hparts : (orderOf r).directory.parts ≠ [] := by
      rw [Order.directory, Tree.child_eq (Script.plainPart_of_isPluginName (hgives.name ▸ hname))]
      simp
    obtain ⟨v, u, hread, hupdate, -, hfault⟩ := hplain.updates hname k
    have hfits := fits_of_shelved hready ht hparts hshelved hname
      ⟨hplain.description.encodable, hplain.version.encodable, hplain.author.encodable⟩ (.inl ⟨v, u, hread, hupdate, hfault⟩)
    exact hready.completes_run hfits ht hname hgives hr

/-! ### A machine with one template -/

def shelf : Tree :=
  ((Tree.empty.put ["templates"] .directory).put ["templates", "minimal"] .directory).putAll ["templates", "minimal"]
    (Minimal.files.map File.entry)

def shelfFiles : List (List Text × Entry) := [Minimal.readme.entry, Minimal.manifest.entry, Minimal.module.entry]

def shelfCopied : Tree := (shelf.put ["p"] .directory).putAll ["p"] shelfFiles

theorem proper_shelf : shelf.Proper := by
  refine Tree.proper_of_entries (by decide) ?_
  decide

theorem shelved_shelf : Shelved (bareMachine false) shelf .minimal := by
  refine ⟨["templates", "minimal"], by decide, fun x => ?_⟩
  have hbelow : shelf.below ["templates", "minimal"] = shelfFiles := rfl
  rw [hbelow]
  simp [shelfFiles, Kind.files, Minimal.files]

theorem ready_shelf : Ready (bareMachine false) .minimal ⟨"", ["p"]⟩ shelf shelfCopied ["p"] where
  vacant := .inr ⟨["p"], by decide, rfl⟩
  copies := by
    intro s hs
    cases s
    cases hs
    rfl
  located := by decide
  reached := by
    have hbelow : shelfCopied.below ["p"] = shelfFiles := rfl
    rw [hbelow]
    simp only [shelfFiles, List.forall_mem_cons, List.not_mem_nil, false_implies, implies_true, and_true]
    exact ⟨⟨by decide, encodable_ofString "README.md"⟩, ⟨by decide, encodable_ofString "_manifest.json"⟩,
      by decide, encodable_ofString "plugin.py"⟩
  named := encodable_ofString "p"

def describedArguments (description : Text) : List Text :=
  ["create", "p", "-t", "minimal", "--yes", "--author", "A", "--description", description, "--version-str", "1"]

def describedOrder (description : Text) : Order :=
  ⟨"p", some .minimal, ".", some "A", some description, some "1", true⟩

def describedFacts (description : Text) : Facts := ⟨"p", description, "1", "A", 2024⟩

theorem directory_described (description : Text) : (describedOrder description).directory = ⟨"", ["p"]⟩ := by
  have hchild : (Path.ofText ".").child "p" = ⟨"", ["p"]⟩ := by decide
  exact hchild

theorem gives_described {description : Text} (h : description ≠ []) :
    (describedOrder description).Gives (bareMachine false) .minimal (describedFacts description) := by
  have hpresent : Text.ofString "A" ≠ [] ∧ Text.ofString "1" ≠ [] := by decide
  exact ⟨rfl, rfl, rfl, rfl, rfl, ⟨hpresent.1, h, hpresent.2⟩, rfl⟩

theorem ready_described (description : Text) :
    Ready (bareMachine false) .minimal (describedOrder description).directory shelf shelfCopied ["p"] := by
  rw [directory_described]
  exact ready_shelf

theorem greeting_says : ∃ s' text v, Completes (runArguments (describedArguments "say hi")) (bareMachine false)
      (.start shelf []) () s' ∧ Holds (bareMachine false) s'.tree ⟨"", ["p", Package.manifestName]⟩ text ∧
    Json.read (Text.foldNewlines text) = .ok v ∧ Says .minimal (describedFacts "say hi") v := by
  obtain ⟨r, hr, horder⟩ : ∃ r, request (describedArguments "say hi") = .command .create r ∧
      orderOf r = describedOrder "say hi" := ⟨_, rfl, rfl⟩
  have hplain : (describedFacts "say hi").Plain :=
    ⟨by decide +kernel, isSimple_of_all (by decide +kernel), isSimple_of_all (by decide +kernel),
      isSimple_of_all (by decide +kernel)⟩
  have hgives := @gives_described "say hi" (by decide)
  have hready := ready_described "say hi"
  rw [← horder] at hgives hready
  obtain ⟨htells, hruns⟩ := @create_says_iff (bareMachine false) (.start shelf []) _ _ _ _ hr proper_shelf hgives
    hready.not_occupied shelved_shelf
  obtain ⟨s', h⟩ := hruns hplain (by decide +kernel) _ _ hready
  obtain ⟨text, hholds, -, hplainSays⟩ := htells s' h
  obtain ⟨v, hv, hsaid⟩ := hplainSays hplain
  refine ⟨s', text, v, h, ?_, hv, hsaid⟩
  rw [horder, directory_described, Tree.child_eq plainPart_manifestName] at hholds
  exact hholds

def isMalformed : Json.Reading Value → Bool
  | .error (.malformed _) => true
  | _ => false

theorem exists_of_isMalformed {r : Json.Reading Value} (h : isMalformed r = true) : ∃ e, r = .error (.malformed e) := by
  unfold isMalformed at h
  split at h
  · next e => exact ⟨e, rfl⟩
  · cases h

theorem quoted_isMalformed :
    isMalformed (Json.read (Text.foldNewlines ((describedFacts "say \"hi\"").filled Kind.minimal.manifest))) = true := by
  dsimp only [Kind.manifest, Minimal.manifest, File.ofLines, List.map, Facts.filled, describedFacts]
  repeat rw [ofString_ofList]
  decide +kernel

/-- A double quote in the description leaves a manifest that is no JSON, although the creation completes. -/
theorem quotedDescription_spoils : ∃ s' text e,
    Completes (runArguments (describedArguments "say \"hi\"")) (bareMachine false) (.start shelf []) () s' ∧
    Holds (bareMachine false) s'.tree ⟨"", ["p", Package.manifestName]⟩ text ∧
    Json.read (Text.foldNewlines text) = .error e := by
  obtain ⟨r, hr, horder⟩ : ∃ r, request (describedArguments "say \"hi\"") = .command .create r ∧
      orderOf r = describedOrder "say \"hi\"" := ⟨_, rfl, rfl⟩
  have hgives := @gives_described "say \"hi\"" (by decide)
  have hready := ready_described "say \"hi\""
  rw [← horder] at hgives hready
  obtain ⟨e, he⟩ : ∃ e, Json.read (Text.foldNewlines ((describedFacts "say \"hi\"").filled Kind.minimal.manifest))
      = .error (.malformed e) := exists_of_isMalformed quoted_isMalformed
  have hname : Script.isPluginName (describedFacts "say \"hi\"").name = true := by decide +kernel
  have hparts : (orderOf r).directory.parts ≠ [] := by
    rw [horder, directory_described]
    exact List.cons_ne_nil _ _
  have hfits := @fits_of_shelved (bareMachine false) (.start shelf []) _ _ _ _ _ hready proper_shelf hparts shelved_shelf
    hname ⟨encodable_ofString _, encodable_ofString _, encodable_ofString _⟩ (.inr ⟨e, he⟩)
  obtain ⟨s', h⟩ := @Ready.completes_run (bareMachine false) (.start shelf []) _ _ _ _ _ _ hready hfits proper_shelf hname
    hgives hr
  have hholds := (created_manifest hr proper_shelf hgives hready.not_occupied shelved_shelf h).2
  rw [horder, directory_described, Tree.child_eq plainPart_manifestName, Facts.refreshed_of_read_error he] at hholds
  exact ⟨s', _, _, h, hholds, he⟩

end PluginKit.Template
