import PluginKit.Proofs.Files.Proper

/-!
# Directories that are made and copied

Directories that are made on the way of a path, one after another (`MadeWay`), leave a proper tree proper. If what is
below one place of a proper tree is put below an empty directory, then the same is found below both (`find?_copy`), and
nothing else has changed (`find?_copy_of_forall_ne`).
-/

namespace PluginKit.Files.Tree

open List

variable {t t' : Tree} {directory place parts source target q : List Text} {e : Entry}
  {entries : List (List Text × Entry)} {p : Path}

/-! ### Entries that are put -/

theorem keys_putIn (q : List Text) (e : Entry) (entries : List (List Text × Entry)) :
    (putIn q e entries).map Prod.fst
      = if q ∈ entries.map Prod.fst then entries.map Prod.fst else entries.map Prod.fst ++ [q] := by
  induction entries with
  | nil => rfl
  | cons x entries ih =>
    obtain ⟨p, x⟩ := x
    rw [putIn]
    by_cases hp : p = q
    · rw [if_pos (beq_iff_eq.mpr hp), map_cons, map_cons, if_pos (mem_cons.mpr (.inl hp.symm))]
    · rw [if_neg (fun h => hp (beq_iff_eq.mp h)), map_cons, map_cons, ih]
      by_cases hq : q ∈ entries.map Prod.fst
      · rw [if_pos hq, if_pos (mem_cons_of_mem _ hq)]
      · rw [if_neg hq, if_neg (not_mem_cons_of_ne_of_not_mem (Ne.symm hp) hq), cons_append]

theorem nodup_put (h : (t.entries.map Prod.fst).Nodup) (q : List Text) (e : Entry) :
    ((t.put q e).entries.map Prod.fst).Nodup := by
  rw [put, keys_putIn]
  split
  · exact h
  · next hq =>
    rw [nodup_append]
    refine ⟨h, nodup_singleton q, ?_⟩
    rintro a ha b hb rfl
    rw [mem_singleton.mp hb] at ha
    exact hq ha

theorem root_put (h : [] ∉ t.entries.map Prod.fst) (hq : q ≠ []) (e : Entry) :
    [] ∉ (t.put q e).entries.map Prod.fst := by
  rw [put, keys_putIn]
  split
  · exact h
  · rw [mem_append, mem_singleton]
    exact fun hmem => hmem.elim h (Ne.symm hq)

theorem find?_putAll_of_forall_ne (h : ∀ x ∈ entries, q ≠ place ++ x.1) (t : Tree) :
    (t.putAll place entries).find? q = t.find? q := by
  induction entries generalizing t with
  | nil => rfl
  | cons x entries ih =>
    obtain ⟨hx, hentries⟩ := forall_mem_cons.mp h
    exact (ih hentries _).trans (find?_put_of_ne hx t x.2)

theorem find?_putAll_of_mem (hnodup : (entries.map Prod.fst).Nodup) (hparts : parts ≠ []) (h : (parts, e) ∈ entries)
    (t : Tree) : (t.putAll place entries).find? (place ++ parts) = some e := by
  induction entries generalizing t with
  | nil => cases h
  | cons x entries ih =>
    rw [map_cons, nodup_cons] at hnodup
    rcases mem_cons.mp h with h | h
    · subst h
      have hlater : ∀ y ∈ entries, place ++ parts ≠ place ++ y.1 := by
        intro y hy heq
        exact hnodup.1 (mem_map.mpr ⟨y, hy, (append_cancel_left heq).symm⟩)
      exact (find?_putAll_of_forall_ne hlater _).trans (find?_put_self (by simp [hparts]) t e)
    · exact ih hnodup.2 h _

theorem nodup_putAll (h : (t.entries.map Prod.fst).Nodup) (place : List Text) (entries : List (List Text × Entry)) :
    ((t.putAll place entries).entries.map Prod.fst).Nodup := by
  induction entries generalizing t with
  | nil => exact h
  | cons x entries ih => exact ih (nodup_put h _ _)

theorem root_putAll (h : [] ∉ t.entries.map Prod.fst) (hentries : ∀ x ∈ entries, x.1 ≠ []) :
    [] ∉ (t.putAll place entries).entries.map Prod.fst := by
  induction entries generalizing t with
  | nil => exact h
  | cons x entries ih =>
    obtain ⟨hx, hentries⟩ := forall_mem_cons.mp hentries
    exact ih (root_put h (by simp [hx]) _) hentries

theorem LeadsTo.putAll (h : t.LeadsTo directory p q) (hnodup : (entries.map Prod.fst).Nodup)
    (hfree : ∀ x ∈ entries, t.find? (place ++ x.1) ≠ some .directory) :
    (t.putAll place entries).LeadsTo directory p q := by
  induction entries generalizing t with
  | nil => exact h
  | cons x entries ih =>
    rw [map_cons, nodup_cons] at hnodup
    obtain ⟨hx, hentries⟩ := forall_mem_cons.mp hfree
    refine ih (h.put hx) hnodup.2 fun y hy => ?_
    rw [find?_put_of_ne]
    · exact hentries y hy
    · intro heq
      exact hnodup.1 (mem_map.mpr ⟨y, hy, append_cancel_left heq⟩)

/-- A path that can be followed in one tree can be followed in another if its parts lead somewhere there. -/
theorem locate_of_leadsTo {r : List Text} (h : t.locate directory p = .ok q) (hleads : t'.LeadsTo directory p r) :
    t'.locate directory p = .ok r := by
  unfold locate at h ⊢
  split at h
  · cases h
  · exact hleads

/-! ### Directories that are made -/

theorem Proper.put_directory (h : t.Proper) {part : Text} (hplace : t.find? place = some .directory)
    (hpart : part ≠ Path.back) (hnone : t.find? (place ++ [part]) = none) :
    (t.put (place ++ [part]) .directory).Proper where
  nodup := nodup_put h.nodup _ _
  root := root_put h.root (by simp) _
  inside := by
    have hkeeps {q : List Text} (hq : t.find? q = some .directory) :
        (t.put (place ++ [part]) .directory).find? q = some .directory := by
      rw [find?_put_of_ne, hq]
      rintro rfl
      rw [hq] at hnone
      cases hnone
    intro q last e hfind
    by_cases hq : q ++ [last] = place ++ [part]
    · obtain ⟨rfl, hlast⟩ := append_inj' hq rfl
      rw [singleton_inj.mp hlast]
      exact ⟨hkeeps hplace, hpart⟩
    · rw [find?_put_of_ne hq] at hfind
      obtain ⟨hdirectory, hback⟩ := h.inside hfind
      exact ⟨hkeeps hdirectory, hback⟩

theorem Proper.exists_of_follow (h : t.Proper) (hparts : parts ≠ []) (hfollow : t.follow place parts = .ok q)
    (hnone : t.find? q = none) :
    ∃ base part, q = base ++ [part] ∧ t.find? base = some .directory ∧ part ≠ Path.back := by
  induction parts generalizing place with
  | nil => exact absurd rfl hparts
  | cons part parts ih =>
    rw [follow] at hfollow
    split at hfollow
    · cases hfollow
    · next next hstep =>
      by_cases hrest : parts = []
      · subst hrest
        cases hfollow
        unfold step at hstep
        split at hstep
        · cases hstep
        · cases hstep
        · next hplace =>
          split at hstep
          · cases hstep
          · split at hstep
            · cases hstep
              -- What is above a directory is one itself.
              by_cases hroot : place = []
              · subst hroot
                cases hnone
              · rw [← dropLast_append_getLast hroot] at hplace
                rw [(h.inside hplace).1] at hnone
                cases hnone
            · next hback =>
              cases hstep
              exact ⟨place, part, rfl, hplace, hback⟩
      · exact ih hrest hfollow

/-- Directories were made on the way of a path, one after another. -/
inductive MadeWay (directory : List Text) (p : Path) (t : Tree) : Tree → Prop where
  | refl : MadeWay directory p t t
  | put {t' : Tree} {place parts : List Text} (h : MadeWay directory p t t') (hparts : parts ≠ [])
    (hway : parts <+: p.parts) (hleads : t'.LeadsTo directory ⟨p.root, parts⟩ place) (hnone : t'.find? place = none) :
    MadeWay directory p t (t'.put place .directory)

theorem MadeWay.made (h : MadeWay directory p t t') : Made directory t p t' := by
  induction h with
  | refl => exact .refl _ _ _
  | put _ _ hway hleads hnone ih => exact ih.put hway hleads hnone

theorem MadeWay.proper (h : MadeWay directory p t t') (ht : t.Proper) : t'.Proper := by
  induction h with
  | refl => exact ht
  | put _ hparts _ hleads hnone ih =>
    obtain ⟨base, part, rfl, hbase, hpart⟩ := ih.exists_of_follow hparts hleads hnone
    exact ih.put_directory hbase hpart hnone

/-! ### Copies -/

def Bare (t : Tree) (place : List Text) : Prop := ∀ parts, parts ≠ [] → t.find? (place ++ parts) = none

/-- **The copy of a directory** holds what the directory holds. -/
theorem find?_copy (h : t.Proper) (hbare : t'.Bare target) (source : List Text) (hparts : parts ≠ []) :
    (t'.putAll target (t.below source)).find? (target ++ parts) = t.find? (source ++ parts) := by
  cases hfind : t.find? (source ++ parts) with
  | some e => exact find?_putAll_of_mem (h.nodup_below source) hparts (h.mem_below_iff.mpr ⟨hparts, hfind⟩) t'
  | none =>
    rw [find?_putAll_of_forall_ne, hbare parts hparts]
    intro x hx heq
    have hsome := (h.mem_below_iff.mp hx).2
    rw [← append_cancel_left heq, hfind] at hsome
    cases hsome

theorem find?_copy_of_forall_ne (h : t.Proper) (hq : ∀ parts, parts ≠ [] → q ≠ target ++ parts) (source : List Text) :
    (t'.putAll target (t.below source)).find? q = t'.find? q :=
  find?_putAll_of_forall_ne (fun x hx => hq x.1 (h.mem_below_iff.mp hx).1) t'

theorem proper_copy (h : t.Proper) (h' : t'.Proper) (htarget : t'.find? target = some .directory)
    (hbare : t'.Bare target) (source : List Text) : (t'.putAll target (t.below source)).Proper where
  nodup := nodup_putAll h'.nodup _ _
  root := root_putAll h'.root fun x hx => (h.mem_below_iff.mp hx).1
  inside := by
    intro place part e hfind
    have hother {q : List Text} (hq : ∀ parts, parts ≠ [] → q ≠ target ++ parts) :=
      @find?_copy_of_forall_ne t t' target q h hq source
    have hself : (t'.putAll target (t.below source)).find? target = some .directory :=
      (hother fun parts hparts heq => hparts (self_eq_append_right.mp heq)).trans htarget
    by_cases hplace : ∃ parts, place = target ++ parts
    · obtain ⟨parts, rfl⟩ := hplace
      rw [append_assoc, find?_copy h hbare source (by simp), ← append_assoc] at hfind
      obtain ⟨hdirectory, hpart⟩ := h.inside hfind
      refine ⟨?_, hpart⟩
      by_cases hparts : parts = []
      · rw [hparts, append_nil]
        exact hself
      · rw [find?_copy h hbare source hparts]
        exact hdirectory
    · have hnot {q : List Text} (hq : q <+: place) : ∀ parts, parts ≠ [] → q ≠ target ++ parts := by
        rintro parts - rfl
        obtain ⟨rest, rfl⟩ := hq
        exact hplace ⟨parts ++ rest, append_assoc _ _ _⟩
      have hlast : ∀ parts, parts ≠ [] → place ++ [part] ≠ target ++ parts := by
        intro parts hparts heq
        rw [← dropLast_append_getLast hparts, ← append_assoc] at heq
        exact hplace ⟨_, (append_inj' heq rfl).1⟩
      rw [hother hlast] at hfind
      rw [hother (hnot prefix_rfl)]
      exact h'.inside hfind

end PluginKit.Files.Tree
