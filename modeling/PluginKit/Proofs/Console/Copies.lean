import PluginKit.Proofs.Console.Runs
import PluginKit.Proofs.Files.Copied

/-!
# Sessions that copy directories

Making a directory with those above it, where nothing was at its path, leaves an empty directory there and has changed
nothing else but the way to it (`completes_makeDirectories`). Copying a directory there fills it with what the other one
holds (`completes_copyTree`).
-/

namespace PluginKit.Console

open Files Tree

variable {w : Surroundings} {s s' : Session} {u : Unit} {t : Tree} {p : Path} {parts : List Text}

theorem madeWay_ensureDirectory (ht : MadeWay w.directory p t s.tree) (hparts : parts ≠ []) (hway : parts <+: p.parts)
    (h : Completes (Session.ensureDirectory ⟨p.root, parts⟩) w s u s') : MadeWay w.directory p t s'.tree := by
  obtain ⟨place, s₁, hplace, hrest⟩ := completes_bind_iff.mp h
  obtain ⟨hlocate, rfl⟩ := completes_locate hplace
  obtain ⟨v, s₂, hget, hmake⟩ := completes_bind_iff.mp hrest
  obtain ⟨rfl, rfl⟩ := completes_get_iff.mp hget
  split at hmake
  · obtain ⟨-, rfl⟩ := completes_pure_iff.mp hmake
    exact ht
  · exact absurd hmake not_completes_fail
  · next hnone =>
    rw [completes_modify_iff.mp hmake]
    exact ht.put hparts hway (leadsTo_of_locate hlocate) hnone

theorem completes_reaches {b : Bool} (h : Completes (Session.reaches p) w s b s') : s' = s := by
  obtain ⟨located, s₁, hlocated, hrest⟩ := completes_bind_iff.mp h
  obtain ⟨-, rfl⟩ := completes_locate?_iff.mp hlocated
  split at hrest
  · obtain ⟨v, s₂, hget, hpure⟩ := completes_bind_iff.mp hrest
    obtain ⟨-, rfl⟩ := completes_get_iff.mp hget
    exact (completes_pure_iff.mp hpure).2.symm
  · exact (completes_pure_iff.mp hrest).2.symm

/-- The missing directories are made from the outermost on; the induction goes along the path from its end. -/
theorem madeWay_makeMissing (hway : parts.reverse <+: p.parts)
    (h : Completes (Session.makeMissing p.root parts) w s u s') : MadeWay w.directory p s.tree s'.tree := by
  induction parts generalizing s' u with
  | nil =>
    rw [(completes_pure_iff.mp h).2]
    exact .refl
  | cons part above ih =>
    obtain ⟨reached, s₁, hreached, hrest⟩ := completes_bind_iff.mp h
    obtain rfl := completes_reaches hreached
    split at hrest
    · rw [(completes_pure_iff.mp hrest).2]
      exact .refl
    · obtain ⟨_, s₂, habove, hlast⟩ := completes_bind_iff.mp hrest
      have hshorter : above.reverse <+: p.parts := by
        rw [List.reverse_cons] at hway
        exact (List.prefix_append _ _).trans hway
      exact madeWay_ensureDirectory (ih hshorter habove) (by simp) hway hlast

/-- **A directory that was made** is empty. -/
theorem completes_makeDirectories (ht : s.tree.Proper) (hparts : p.parts ≠ [])
    (h : Completes (Session.makeDirectories p) w s u s') :
    ∃ target, MadeWay w.directory p s.tree s'.tree ∧ s'.tree.locate w.directory p = .ok target ∧
      s'.tree.find? target = some .directory ∧ s'.tree.Bare target := by
  obtain ⟨_, s₁, hmissing, hlast⟩ := completes_bind_iff.mp h
  have hway : MadeWay w.directory p s.tree s₁.tree := by
    refine madeWay_makeMissing ?_ hmissing
    rw [List.reverse_reverse]
    exact List.dropLast_prefix _
  obtain ⟨target, s₂, htarget, hrest⟩ := completes_bind_iff.mp hlast
  obtain ⟨hlocate, rfl⟩ := completes_locate htarget
  obtain ⟨v, s₃, hget, hmake⟩ := completes_bind_iff.mp hrest
  obtain ⟨rfl, rfl⟩ := completes_get_iff.mp hget
  split at hmake
  · exact absurd hmake not_completes_fail
  · next hnone =>
    rw [completes_modify_iff.mp hmake]
    have hne : target ≠ [] := by
      rintro rfl
      cases hnone
    have hfree : v.tree.find? target ≠ some .directory := by
      rw [hnone]
      exact fun he => by cases he
    refine ⟨target, hway.put hparts List.prefix_rfl (leadsTo_of_locate hlocate) hnone, locate_put hfree hlocate,
      find?_put_self hne _ _, ?_⟩
    intro rest hrest
    rw [find?_put_of_ne (by simpa using hrest)]
    exact (hway.proper ht).find?_eq_none hfree hrest

/-- A directory was copied from one place to another, which is new. -/
structure Copied (w : Surroundings) (p : Path) (source target : List Text) (t t' : Tree) : Prop where
  located : t'.locate w.directory p = .ok target
  directory : t'.find? target = some .directory
  proper : t'.Proper
  same : ∀ parts, parts ≠ [] → t'.find? (target ++ parts) = t.find? (source ++ parts)
  frame : ∀ q, ¬ target <+: q → t'.find? q = t.find? q ∨ t.find? q = none ∧ t'.find? q = some .directory ∧
    ∃ parts, parts <+: p.parts ∧ t'.LeadsTo w.directory ⟨p.root, parts⟩ q

/-- **A copy** of a directory of a proper tree. -/
theorem completes_copyTree {template : Path} (ht : s.tree.Proper) (hparts : p.parts ≠ [])
    (h : Completes (Session.copyTree template p) w s u s') :
    ∃ source target, s.tree.locate w.directory template = .ok source ∧ s.tree.find? source = some .directory ∧
      Copied w p source target s.tree s'.tree := by
  obtain ⟨source, s₁, hsource, hrest⟩ := completes_bind_iff.mp h
  obtain ⟨hlocate, rfl⟩ := completes_locate hsource
  obtain ⟨before, s₂, hget, hcopy⟩ := completes_bind_iff.mp hrest
  obtain ⟨rfl, rfl⟩ := completes_get_iff.mp hget
  split at hcopy
  · next hdirectory =>
    obtain ⟨_, s₃, hmake, hput⟩ := completes_bind_iff.mp hcopy
    obtain ⟨target, hway, htarget, hmade, hbare⟩ := completes_makeDirectories ht hparts hmake
    obtain ⟨copied, s₄, hcopied, hmodify⟩ := completes_bind_iff.mp hput
    obtain ⟨hsame, rfl⟩ := completes_locate hcopied
    rw [htarget] at hsame
    cases hsame
    split at hmodify
    · exact absurd hmodify not_completes_fail
    · rw [completes_modify_iff.mp hmodify]
      have hother {q : List Text} (hq : ∀ parts, parts ≠ [] → q ≠ target ++ parts) :=
        @find?_copy_of_forall_ne before.tree s₄.tree target q ht hq source
      have hleads {q : List Text} {path : Path} (hq : s₄.tree.LeadsTo w.directory path q) :
          (s₄.tree.putAll target (before.tree.below source)).LeadsTo w.directory path q := by
        refine hq.putAll (ht.nodup_below source) fun x hx => ?_
        rw [hbare x.1 (ht.mem_below_iff.mp hx).1]
        exact fun he => by cases he
      refine ⟨source, target, hlocate, hdirectory, locate_of_leadsTo htarget (hleads (leadsTo_of_locate htarget)), ?_,
        proper_copy ht (hway.proper ht) hmade hbare source, fun parts hne => find?_copy ht hbare source hne, ?_⟩
      · rw [hother fun rest hne heq => hne (List.self_eq_append_right.mp heq)]
        exact hmade
      · intro q hq
        have hkept := hother (q := q) fun rest _ heq => hq (heq ▸ List.prefix_append target rest)
        rw [hkept]
        rcases hway.made q with hsame | ⟨hnone, hnew, way, hprefix, hwayLeads⟩
        · exact .inl hsame
        · exact .inr ⟨hnone, hnew, way, hprefix, hleads hwayLeads⟩
  · exact absurd hcopy not_completes_fail
  · exact absurd hcopy not_completes_fail

end PluginKit.Console
