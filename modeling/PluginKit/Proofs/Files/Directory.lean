import PluginKit.Proofs.Files.Tree

/-!
# Files below a directory

A path leads to the place of a directory (`LeadsTo`), and a plain name below it one part on (`locate_child_eq`). Files
that are put there one after another stand at their names (`find?_putFiles_of_mem`), and nothing else changes
(`find?_putFiles_of_forall_ne`).
-/

namespace PluginKit

open List

variable {parts : List Text} {name : Text} {files : List (Text × Text)}

theorem Text.splitOn_of_not_mem {sep : CodePoint} {s : Text} (h : sep ∉ s) : splitOn sep s = [s] := by
  induction s with
  | nil => rfl
  | cons c cs ih =>
    rw [mem_cons, not_or] at h
    rw [splitOn, if_neg (fun hc => h.1 hc.symm), ih h.2]

namespace Files.Tree

variable {t : Tree} {directory place q : List Text} {p : Path}

/-- The place that a path leads to from a directory, however long the path is. -/
def LeadsTo (t : Tree) (directory : List Text) (p : Path) (place : List Text) : Prop :=
  t.follow (if p.isAbsolute then [] else directory) p.parts = .ok place

theorem LeadsTo.unique {place' : List Text} (h : t.LeadsTo directory p place) (h' : t.LeadsTo directory p place') :
    place = place' :=
  Except.ok.inj (h.symm.trans h')

theorem LeadsTo.put {e : Entry} (h : t.LeadsTo directory p place) (hq : t.find? q ≠ some .directory) :
    (t.put q e).LeadsTo directory p place :=
  follow_put hq h

theorem leadsTo_of_locate (h : t.locate directory p = .ok place) : t.LeadsTo directory p place := by
  unfold locate at h
  split at h
  · cases h
  · exact h

/-! ### Plain names -/

theorem follow_bind (t : Tree) (place parts rest : List Text) :
    t.follow place (parts ++ rest) = t.follow place parts >>= fun base => t.follow base rest := by
  induction parts generalizing place with
  | nil => rfl
  | cons first parts ih =>
    rw [cons_append, follow, follow]
    cases t.step place first with
    | error o => rfl
    | ok next => exact ih next

theorem follow_concat (t : Tree) (place : List Text) (parts : List Text) (part : Text) :
    t.follow place (parts ++ [part]) = t.follow place parts >>= fun base => t.step base part := by
  have hlast (base : List Text) : t.follow base [part] = t.step base part := by
    rw [follow]
    cases t.step base part with
    | error o => rfl
    | ok next => rfl
  simp only [follow_bind, hlast]

theorem follow_forth (hparts : Path.back ∉ parts) (h : t.follow place parts = .ok q) : q = place ++ parts := by
  induction parts generalizing place with
  | nil =>
    cases h
    rw [append_nil]
  | cons part parts ih =>
    rw [mem_cons, not_or] at hparts
    rw [follow] at h
    split at h
    · cases h
    · next next hstep =>
      have hnext : next = place ++ [part] := by
        unfold step at hstep
        split at hstep
        · cases hstep
        · cases hstep
        · split at hstep
          · cases hstep
          · rw [if_neg (Ne.symm hparts.1)] at hstep
            cases hstep
            rfl
      rw [ih hparts.2 h, hnext, append_assoc, singleton_append]

theorem locate_absolute (hparts : Path.back ∉ parts)
    (h : t.locate directory (.absolute parts) = .ok q) : q = parts := by
  unfold locate at h
  split at h
  · cases h
  · exact follow_forth hparts h

theorem back_not_mem_collapse (parts : List Text) : Path.back ∉ Path.collapse parts := by
  have hstep (done : List Text) (hdone : Path.back ∉ done) :
      Path.back ∉ parts.foldl (fun done part => if part = Path.back then done.dropLast else done ++ [part]) done := by
    induction parts generalizing done with
    | nil => exact hdone
    | cons part parts ih =>
      rw [foldl_cons]
      split
      · exact ih _ fun hmem => hdone (dropLast_subset _ hmem)
      · next hpart => exact ih _ (by simpa using ⟨hdone, Ne.symm hpart⟩)
  exact hstep [] not_mem_nil

theorem child_eq (hn : PlainPart name) (p : Path) : p.child name = ⟨p.root, p.parts ++ [name]⟩ := by
  rw [Path.child, hn.path]
  rfl

/-- A name without slashes that is neither empty nor made of dots with a meaning is one part of a path. -/
theorem PlainPart.of_not_mem (hslash : CodePoint.scalar '/' ∉ name) (hne : name ≠ []) (hdot : name ≠ ".")
    (hback : name ≠ Path.back) : PlainPart name := by
  have hroot : Path.rootOf name = "" := by
    unfold Path.rootOf
    split
    · exact absurd mem_cons_self hslash
    · exact absurd mem_cons_self hslash
    · exact absurd mem_cons_self hslash
    · rfl
  refine ⟨?_, hback⟩
  rw [Path.ofText, hroot, Text.splitOn_of_not_mem hslash]
  have hkept : (!name.isEmpty && name != ".") = true := by simp [hne, hdot]
  rw [filter_cons, if_pos hkept, filter_nil]

theorem plainPart_of_not_mem {c : CodePoint} {cs : Text} (hslash : CodePoint.scalar '/' ∉ c :: cs)
    (hdot : c ≠ .scalar '.') : PlainPart (c :: cs) :=
  .of_not_mem hslash (cons_ne_nil c cs) (fun h => hdot (List.cons.inj h).1) (fun h => hdot (List.cons.inj h).1)

theorem step_of_directory (hback : name ≠ Path.back) (hsize : byteSize name ≤ greatestName)
    (hplace : t.find? place = some .directory) : t.step place name = .ok (place ++ [name]) := by
  rw [step, hplace]
  simp only
  rw [if_neg (by omega), if_neg hback]

/-- A plain name below a directory leads one part on, if the directory is there and the path is not too long. -/
theorem locate_child_eq (hn : PlainPart name) (hsize : byteSize name ≤ greatestName)
    (hroom : pathObstacle? (p.child name) = none) (h : t.LeadsTo directory p place)
    (hplace : t.find? place = some .directory) : t.locate directory (p.child name) = .ok (place ++ [name]) := by
  rw [child_eq hn] at hroom ⊢
  have hfollow : t.follow (if p.isAbsolute then [] else directory) (p.parts ++ [name]) = .ok (place ++ [name]) := by
    rw [follow_concat, h]
    exact step_of_directory hn.back hsize hplace
  rw [locate, hroom]
  exact hfollow

/-! ### Several files -/

/-- The tree with text files put below a place, one after another. -/
def putFiles (place : List Text) : List (Text × Text) → Tree → Tree
  | [], t => t
  | f :: rest, t => putFiles place rest (t.put (place ++ [f.1]) (.file (.text f.2)))

theorem find?_putFiles_of_forall_ne (h : ∀ f ∈ files, q ≠ place ++ [f.1]) (t : Tree) :
    (putFiles place files t).find? q = t.find? q := by
  induction files generalizing t with
  | nil => rfl
  | cons f files ih =>
    obtain ⟨hf, hfiles⟩ := forall_mem_cons.mp h
    rw [putFiles, ih hfiles, find?_put_of_ne hf]

theorem find?_putFiles_of_mem {f : Text × Text} (hf : f ∈ files)
    (hnodup : (files.map Prod.fst).Nodup) (t : Tree) :
    (putFiles place files t).find? (place ++ [f.1]) = some (.file (.text f.2)) := by
  induction files generalizing t with
  | nil => cases hf
  | cons g files ih =>
    rw [map_cons, nodup_cons] at hnodup
    rw [putFiles]
    rcases mem_cons.mp hf with rfl | hf
    · have hlater : ∀ g ∈ files, place ++ [f.1] ≠ place ++ [g.1] := by
        intro g hg he
        have hname : f.1 = g.1 := singleton_inj.mp (append_cancel_left he)
        exact hnodup.1 (hname ▸ mem_map_of_mem hg)
      rw [find?_putFiles_of_forall_ne hlater, find?_put_self (by simp)]
    · exact ih hf hnodup.2 _

/-! ### Directories that are made -/

/-- Nothing has changed except that directories were made on the way of a path where nothing was. -/
def Made (directory : List Text) (t : Tree) (p : Path) (t' : Tree) : Prop :=
  ∀ q, t'.find? q = t.find? q ∨ t.find? q = none ∧ t'.find? q = some .directory ∧
    ∃ parts, parts <+: p.parts ∧ t'.LeadsTo directory ⟨p.root, parts⟩ q

theorem Made.refl (directory : List Text) (t : Tree) (p : Path) : Made directory t p t := fun _ => .inl rfl

theorem Made.mono {t' : Tree} {root : Text} {parts' : List Text} (h : Made directory t ⟨root, parts⟩ t')
    (hparts : parts <+: parts') : Made directory t ⟨root, parts'⟩ t' := by
  intro q
  rcases h q with hq | ⟨hnone, hmade, way, hway, hleads⟩
  · exact .inl hq
  · exact .inr ⟨hnone, hmade, way, hway.trans hparts, hleads⟩

theorem Made.put {t' : Tree} {way : List Text} (h : Made directory t p t') (hway : way <+: p.parts)
    (hleads : t'.LeadsTo directory ⟨p.root, way⟩ place) (hnone : t'.find? place = none) :
    Made directory t p (t'.put place .directory) := by
  have hfree : t'.find? place ≠ some .directory := by
    rw [hnone]
    exact nofun
  intro q
  by_cases hq : q = place
  · subst hq
    have hne : q ≠ [] := by
      rintro rfl
      exact hfree rfl
    rcases h q with hsame | ⟨-, hmade, -⟩
    · exact .inr ⟨hsame ▸ hnone, find?_put_self hne _ _, way, hway, hleads.put hfree⟩
    · exact absurd hmade hfree
  · rw [find?_put_of_ne hq]
    rcases h q with hsame | ⟨hmissing, hmade, way, hway, hwayLeads⟩
    · exact .inl hsame
    · exact .inr ⟨hmissing, hmade, way, hway, hwayLeads.put hfree⟩

end Files.Tree

end PluginKit
