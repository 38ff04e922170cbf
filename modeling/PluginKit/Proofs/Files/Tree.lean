import Mathlib.Tactic
import PluginKit.Files.Tree

/-!
# Writing files into a tree

A file that is put where no directory is changes nothing but its own place, and no path leads elsewhere for it
(`find?_put_of_ne`, `locate_put`). A plain name below a directory leads to a place of its own (`locate_child`), so
that files with different names do not get into each other's way.
-/

namespace PluginKit.Files.Tree

variable {part : Text} {parts r directory : List Text} {p : Path}

/-! ### What is at a place -/

theorem find?_cons (place q : List Text) (e : Entry) (entries : List (List Text × Entry)) :
    (((q, e) :: entries).find? (·.1 == place)).map (·.2)
      = if q = place then some e else (entries.find? (·.1 == place)).map (·.2) := by
  by_cases h : q = place
  · simp [h]
  · simp [h]

theorem find?_putIn (place q : List Text) (e : Entry) (entries : List (List Text × Entry)) :
    ((putIn place e entries).find? (·.1 == q)).map (·.2)
      = if place = q then some e else (entries.find? (·.1 == q)).map (·.2) := by
  induction entries with
  | nil => rw [putIn, find?_cons]
  | cons old entries ih =>
    obtain ⟨p, x⟩ := old
    rw [putIn]
    split
    · next hp =>
      rw [find?_cons, find?_cons, beq_iff_eq.mp hp]
      split
      · rfl
      · rfl
    · next hp =>
      rw [find?_cons, find?_cons, ih]
      by_cases hq : p = q
      · rw [if_pos hq, if_pos hq, if_neg]
        rintro rfl
        exact hp (beq_iff_eq.mpr hq)
      · rw [if_neg hq, if_neg hq]

variable {t : Tree} {place q : List Text} {e : Entry}

theorem find?_put_self (hp : place ≠ []) (t : Tree) (e : Entry) : (t.put place e).find? place = some e := by
  rw [find?, if_neg (by simpa using hp), put, find?_putIn, if_pos rfl]

theorem find?_put_of_ne (h : q ≠ place) (t : Tree) (e : Entry) : (t.put place e).find? q = t.find? q := by
  unfold find?
  split
  · rfl
  · rw [put, find?_putIn, if_neg h.symm]

/-! ### Where paths lead -/

theorem put_put (t : Tree) (place : List Text) (e e' : Entry) : (t.put place e).put place e' = t.put place e' := by
  unfold put
  congr 1
  induction t.entries with
  | nil => simp [putIn]
  | cons x entries ih =>
    obtain ⟨p, old⟩ := x
    by_cases h : p = place
    · simp [putIn, h]
    · simp only [putIn, beq_eq_false_iff_ne.mpr h, Bool.false_eq_true, if_false, ih]

theorem step_put (h : t.find? q ≠ some .directory) {next : List Text}
    (hstep : t.step place part = .ok next) : (t.put q e).step place part = .ok next := by
  unfold step at hstep ⊢
  cases hfind : t.find? place with
  | none =>
    rw [hfind] at hstep
    cases hstep
  | some entry =>
    have hne : place ≠ q ∨ ∃ c, entry = .file c := by
      cases entry with
      | file c => exact .inr ⟨c, rfl⟩
      | directory => exact .inl fun hpq => h (hpq ▸ hfind)
    rcases hne with hne | ⟨c, rfl⟩
    · rw [find?_put_of_ne hne, hfind]
      rw [hfind] at hstep
      exact hstep
    · rw [hfind] at hstep
      cases hstep

theorem follow_put (h : t.find? q ≠ some .directory)
    (hfollow : t.follow place parts = .ok r) : (t.put q e).follow place parts = .ok r := by
  induction parts generalizing place with
  | nil => exact hfollow
  | cons part parts ih =>
    rw [follow] at hfollow
    split at hfollow
    · cases hfollow
    · next next hstep =>
      rw [follow, step_put h hstep]
      exact ih hfollow

/-- A path leads to the same place after something was put where no directory is. -/
theorem locate_put (h : t.find? q ≠ some .directory)
    (hlocate : t.locate directory p = .ok r) : (t.put q e).locate directory p = .ok r := by
  unfold locate at hlocate ⊢
  split at hlocate
  · cases hlocate
  · exact follow_put h hlocate

/-! ### Plain names -/

/-- A name that is one part of a path. -/
structure PlainPart (name : Text) : Prop where
  path : Path.ofText name = ⟨"", [name]⟩
  back : name ≠ Path.back

theorem follow_append (hp : part ≠ Path.back)
    (h : t.follow place (parts ++ [part]) = .ok r) : ∃ base, t.follow place parts = .ok base ∧ r = base ++ [part] := by
  induction parts generalizing place with
  | nil =>
    refine ⟨place, rfl, ?_⟩
    rw [List.nil_append, follow] at h
    split at h
    · cases h
    · next next hstep =>
      cases h
      unfold step at hstep
      split at hstep
      · cases hstep
      · cases hstep
      · split at hstep
        · cases hstep
        · cases hstep
          rfl
  | cons first parts ih =>
    rw [List.cons_append, follow] at h
    split at h
    · cases h
    · next next hstep =>
      obtain ⟨base, hbase, hr⟩ := ih h
      refine ⟨base, ?_, hr⟩
      rw [follow, hstep]
      exact hbase

/-- A plain name below a directory leads to the place of the directory and one part on. -/
theorem locate_child {name : Text} (hn : PlainPart name)
    (h : t.locate directory (p.child name) = .ok r) :
    ∃ base, t.follow (if p.isAbsolute then [] else directory) p.parts = .ok base ∧ r = base ++ [name] := by
  have hchild : p.child name = ⟨p.root, p.parts ++ [name]⟩ := by
    rw [Path.child, hn.path]
    rfl
  rw [hchild, locate] at h
  split at h
  · cases h
  · exact follow_append hn.back h

end PluginKit.Files.Tree
