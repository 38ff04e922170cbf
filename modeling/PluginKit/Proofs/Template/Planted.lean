import PluginKit.Proofs.Console.Copies
import PluginKit.Proofs.Console.Stops
import PluginKit.Proofs.Template.Updated
import PluginKit.Template.Create

/-!
# Templates that are planted

A template is copied into the directory of a new plugin, and then every file there that is a text is filled, one after
another. In a proper tree each file below the directory is written once and at its own place, so that what is found
there afterwards is the filled image of what the template holds (`completes_plant`).
-/

namespace PluginKit.Template

open Console Files List

variable {w : Surroundings} {s s' : Session} {u : Unit} {f : Facts} {p : Path} {target : List Text}
variable {x : List Text × Entry} {t : Tree} {entries : List (List Text × Entry)} {parts place : List Text}

/-! ### Filling the files -/

namespace Facts

/-- What filling makes of the content of a file: a text is filled, anything else stays. -/
def fillContent (f : Facts) (c : Content) : Content :=
  match c.read with
  | .ok text => .text (f.fill text)
  | .error _ => c

def fillEntry (f : Facts) : Entry → Entry
  | .directory => .directory
  | .file c => .file (f.fillContent c)

def writes? (f : Facts) (x : List Text × Entry) : Option (List Text × Entry) :=
  match x.2 with
  | .directory => none
  | .file c =>
    match c.read with
    | .ok text => some (x.1, .file (.text (f.fill text)))
    | .error _ => none

theorem writes?_eq_some {y : List Text × Entry} (h : f.writes? x = some y) :
    y = (x.1, f.fillEntry x.2) ∧ x.2 ≠ .directory := by
  obtain ⟨parts, e⟩ := x
  unfold writes? at h
  cases e with
  | directory => cases h
  | file c =>
    dsimp only at h
    split at h
    · next text hread =>
      cases h
      refine ⟨?_, fun he => by cases he⟩
      dsimp only [fillEntry, fillContent]
      rw [hread]
    · cases h

theorem fillEntry_of_writes?_eq_none (h : f.writes? x = none) : f.fillEntry x.2 = x.2 := by
  obtain ⟨parts, e⟩ := x
  unfold writes? at h
  cases e with
  | directory => rfl
  | file c =>
    dsimp only at h
    split at h
    · cases h
    · next e hread =>
      dsimp only [fillEntry, fillContent]
      rw [hread]

theorem sublist_writes (f : Facts) (entries : List (List Text × Entry)) :
    ((entries.filterMap f.writes?).map Prod.fst).Sublist (entries.map Prod.fst) := by
  induction entries with
  | nil => exact .slnil
  | cons x entries ih =>
    cases hx : f.writes? x with
    | none =>
      rw [filterMap_cons_none hx]
      exact ih.cons _
    | some y =>
      rw [filterMap_cons_some hx, map_cons, map_cons, (writes?_eq_some hx).1]
      exact ih.cons_cons _

/-- What is found after filling: the filled entry where one is listed. -/
theorem find?_putAll_writes (hnodup : (entries.map Prod.fst).Nodup)
    {e : Entry} (hparts : parts ≠ []) (hmem : (parts, e) ∈ entries)
    (hfind : t.find? (target ++ parts) = some e) :
    (t.putAll target (entries.filterMap f.writes?)).find? (target ++ parts) = some (f.fillEntry e) := by
  cases hwrites : f.writes? (parts, e) with
  | some y =>
    have hy := (writes?_eq_some hwrites).1
    subst hy
    exact Tree.find?_putAll_of_mem (hnodup.sublist (f.sublist_writes entries)) hparts
      (mem_filterMap.mpr ⟨_, hmem, hwrites⟩) t
  | none =>
    rw [fillEntry_of_writes?_eq_none hwrites, Tree.find?_putAll_of_forall_ne _ t, hfind]
    -- Another entry for the same place would be this one.
    intro y hy heq
    obtain ⟨x, hx, hxy⟩ := mem_filterMap.mp hy
    have hsame : x.1 = parts := by
      rw [(writes?_eq_some hxy).1] at heq
      exact (append_cancel_left heq).symm
    have hxe : x = (parts, e) := (inj_on_of_nodup_map hnodup) hx hmem hsame
    rw [hxe, hwrites] at hxy
    cases hxy

end Facts

theorem locate_below (hleads : t.LeadsTo w.directory p target)
    (hparts : Path.back ∉ parts) (h : t.locate w.directory ⟨p.root, p.parts ++ parts⟩ = .ok place) :
    place = target ++ parts := by
  have hfollow := Tree.leadsTo_of_locate h
  have htarget : t.follow (if p.isAbsolute then [] else w.directory) p.parts = .ok target := hleads
  have hrest : t.follow target parts = .ok place := by
    have hboth : t.follow (if p.isAbsolute then [] else w.directory) (p.parts ++ parts) = .ok place := hfollow
    rw [Tree.follow_bind, htarget] at hboth
    exact hboth
  exact Tree.follow_forth hparts hrest

/-- What can be located before files are filled is located afterwards. -/
theorem locate_fillFiles {path : Path}
    (h : Completes (fillFiles f p entries) w s u s') (hlocate : s.tree.locate w.directory path = .ok place) :
    s'.tree.locate w.directory path = .ok place := by
  induction entries generalizing s with
  | nil =>
    rw [← (completes_pure_iff.mp h).2]
    exact hlocate
  | cons x entries ih =>
    obtain ⟨parts, e⟩ := x
    cases e with
    | directory => exact ih h hlocate
    | file c =>
      unfold fillFiles at h
      split at h
      · obtain ⟨_, s₁, hwrite, hmore⟩ := completes_bind_iff.mp h
        obtain ⟨written, -, hfree, rfl⟩ := completes_writeFile (completes_writeText_iff.mp hwrite).2
        exact ih hmore (Tree.locate_put hfree hlocate)
      · exact ih h hlocate

/-- **Filling files** writes each at its place, where it is found afterwards. -/
theorem completes_fillFiles (hleads : s.tree.LeadsTo w.directory p target)
    (hentries : ∀ x ∈ entries, Path.back ∉ x.1) (h : Completes (fillFiles f p entries) w s u s') :
    s'.tree = s.tree.putAll target (entries.filterMap f.writes?) ∧
      ∀ y ∈ entries.filterMap f.writes?, s'.tree.locate w.directory ⟨p.root, p.parts ++ y.1⟩ = .ok (target ++ y.1) := by
  induction entries generalizing s with
  | nil =>
    rw [← (completes_pure_iff.mp h).2]
    exact ⟨rfl, fun _ hy => absurd hy not_mem_nil⟩
  | cons x entries ih =>
    obtain ⟨hx, hrest⟩ := forall_mem_cons.mp hentries
    obtain ⟨parts, e⟩ := x
    cases e with
    | directory => exact ih hleads hrest h
    | file c =>
      unfold fillFiles at h
      cases hread : c.read with
      | error e =>
        have hnone : f.writes? (parts, .file c) = none := by
          unfold Facts.writes?
          dsimp only
          rw [hread]
        rw [filterMap_cons_none hnone]
        rw [hread] at h
        exact ih hleads hrest h
      | ok text =>
        have hsome : f.writes? (parts, .file c) = some (parts, .file (.text (f.fill text))) := by
          unfold Facts.writes?
          dsimp only
          rw [hread]
        rw [filterMap_cons_some hsome]
        rw [hread] at h
        obtain ⟨_, s₁, hwrite, hmore⟩ := completes_bind_iff.mp h
        obtain ⟨place, hlocate, hfree, rfl⟩ := completes_writeFile (completes_writeText_iff.mp hwrite).2
        obtain rfl := locate_below hleads hx hlocate
        obtain ⟨htree, hlocated⟩ := ih (hleads.put hfree) hrest hmore
        refine ⟨htree, forall_mem_cons.mpr ⟨?_, hlocated⟩⟩
        exact locate_fillFiles hmore (Tree.locate_put hfree hlocate)

/-! ### Planting -/

/-- The directory of a plugin holds the filled image of a template. -/
structure Planted (w : Surroundings) (p : Path) (f : Facts) (source target : List Text) (t t' : Tree) : Prop where
  located : t'.locate w.directory p = .ok target
  directory : t'.find? target = some .directory
  image : ∀ parts, parts ≠ [] → t'.find? (target ++ parts) = (t.find? (source ++ parts)).map f.fillEntry
  frame : ∀ q, ¬ target <+: q → t'.find? q = t.find? q ∨ t.find? q = none ∧ t'.find? q = some .directory ∧
    ∃ parts, parts <+: p.parts ∧ t'.LeadsTo w.directory ⟨p.root, parts⟩ q

theorem planted_of_copied {source : List Text} {t₁ : Tree} (h : Copied w p source target t t₁) (f : Facts) :
    Planted w p f source target t (t₁.putAll target ((t₁.below target).filterMap f.writes?)) := by
  have hmem {x : List Text × Entry} (hx : x ∈ t₁.below target) := h.proper.mem_below_iff.mp hx
  have hnodup := h.proper.nodup_below target
  have hwritten {y : List Text × Entry} (hy : y ∈ (t₁.below target).filterMap f.writes?) :
      ∃ e, (y.1, e) ∈ t₁.below target ∧ e ≠ .directory := by
    obtain ⟨x, hx, hxy⟩ := mem_filterMap.mp hy
    obtain ⟨rfl, hfile⟩ := Facts.writes?_eq_some hxy
    exact ⟨x.2, hx, hfile⟩
  have hleads {q : List Text} {path : Path} (hq : t₁.LeadsTo w.directory path q) :
      (t₁.putAll target ((t₁.below target).filterMap f.writes?)).LeadsTo w.directory path q := by
    refine hq.putAll (hnodup.sublist (f.sublist_writes _)) fun y hy => ?_
    obtain ⟨e, he, hfile⟩ := hwritten hy
    rw [(hmem he).2]
    exact fun heq => hfile (Option.some.inj heq)
  have hother (q : List Text) (hq : ∀ parts, parts ≠ [] → q ≠ target ++ parts) :
      (t₁.putAll target ((t₁.below target).filterMap f.writes?)).find? q = t₁.find? q := by
    refine Tree.find?_putAll_of_forall_ne (fun y hy => ?_) t₁
    obtain ⟨e, he, -⟩ := hwritten hy
    exact hq y.1 (hmem he).1
  refine ⟨Tree.locate_of_leadsTo h.located (hleads (Tree.leadsTo_of_locate h.located)), ?_, ?_, ?_⟩
  · rw [hother target fun parts hparts heq => hparts (self_eq_append_right.mp heq), h.directory]
  · intro parts hparts
    rw [← h.same parts hparts]
    cases hfind : t₁.find? (target ++ parts) with
    | some e =>
      exact Facts.find?_putAll_writes hnodup hparts (h.proper.mem_below_iff.mpr ⟨hparts, hfind⟩) hfind
    | none =>
      rw [Tree.find?_putAll_of_forall_ne _ t₁, hfind]
      · rfl
      · intro y hy heq
        obtain ⟨e, he, -⟩ := hwritten hy
        have hsome := (hmem he).2
        rw [← append_cancel_left heq, hfind] at hsome
        cases hsome
  · intro q hq
    rw [hother q fun rest _ heq => hq (heq ▸ prefix_append target rest)]
    rcases h.frame q hq with hsame | ⟨hnone, hnew, way, hway, hwayLeads⟩
    · exact .inl hsame
    · exact .inr ⟨hnone, hnew, way, hway, hleads hwayLeads⟩

/-- **A template that was planted**, with the place it came from. -/
theorem completes_plant {template : Path} (ht : s.tree.Proper) (hparts : p.parts ≠ [])
    (h : Completes (plant template f p) w s u s') :
    ∃ source target, s.tree.locate w.directory template = .ok source ∧ s.tree.find? source = some .directory ∧
      Planted w p f source target s.tree s'.tree ∧
      ∀ parts c text, parts ≠ [] → s.tree.find? (source ++ parts) = some (.file c) → c.read = .ok text →
        s'.tree.locate w.directory ⟨p.root, p.parts ++ parts⟩ = .ok (target ++ parts) := by
  obtain ⟨_, s₁, hcopy, hsaid⟩ := completes_bind_iff.mp h
  obtain ⟨source, target, hsource, hdirectory, hcopied⟩ := completes_copyTree ht hparts hcopy
  obtain ⟨_, s₂, hsay, hlist⟩ := completes_bind_iff.mp hsaid
  have htree := completes_say hsay
  rw [← htree] at hcopied
  obtain ⟨entries, s₃, hbelow, hfill⟩ := completes_bind_iff.mp hlist
  obtain ⟨rfl, rfl⟩ := (completes_below_iff hcopied.located).mp hbelow
  have hback : ∀ x ∈ s₃.tree.below target, Path.back ∉ x.1 := by
    intro x hx
    exact hcopied.proper.back_not_mem (hcopied.proper.mem_below_iff.mp hx).2
  obtain ⟨htree, hlocated⟩ := completes_fillFiles (Tree.leadsTo_of_locate hcopied.located) hback hfill
  refine ⟨source, target, hsource, hdirectory, ?_, ?_⟩
  · rw [htree]
    exact planted_of_copied hcopied f
  · intro parts c text hparts hfind hread
    rw [← hcopied.same parts hparts] at hfind
    refine hlocated (parts, .file (.text (f.fill text))) (mem_filterMap.mpr ⟨(parts, .file c), ?_, ?_⟩)
    · exact hcopied.proper.mem_below_iff.mpr ⟨hparts, hfind⟩
    · unfold Facts.writes?
      dsimp only
      rw [hread]

end PluginKit.Template
