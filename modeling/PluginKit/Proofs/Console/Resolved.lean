import PluginKit.Proofs.Console.Stops

/-!
# Paths that can be resolved

A path that can be followed at all can be resolved: what is looked at on the way has the same root and no other parts,
and so no code points that could not stand in a path (`completes_resolve_of`).
-/

namespace PluginKit.Files

open List

def isNameable (c : CodePoint) : Bool := !(c.isSurrogate && !standsForByte c) && c != '\x00'

theorem firstNameless?_eq_none_iff {s : Text} (position : Nat) :
    firstNameless? position s = none ↔ ∀ c ∈ s, (c.isSurrogate && !standsForByte c) = false := by
  induction s generalizing position with
  | nil => simp [firstNameless?]
  | cons c s ih =>
    rw [firstNameless?, forall_mem_cons]
    split
    · next hc => simp [hc]
    · next hc =>
      rw [ih]
      simp [hc]

/-- A path is usable if all its code points can stand in a path; it may still be too long. -/
theorem usable_iff {p : Path} :
    (pathObstacle? p = none ∨ pathObstacle? p = some .nameTooLong) ↔ ∀ c ∈ p.text, isNameable c = true := by
  have hnameable : (∀ c ∈ p.text, isNameable c = true) ↔
      firstNameless? 0 p.text = none ∧ CodePoint.scalar '\x00' ∉ p.text := by
    rw [firstNameless?_eq_none_iff]
    simp only [isNameable, Bool.and_eq_true, Bool.not_eq_true', bne_iff_ne]
    constructor
    · intro h
      exact ⟨fun c hc => (h c hc).1, fun hmem => (h _ hmem).2 rfl⟩
    · rintro ⟨h, hnull⟩ c hc
      exact ⟨h c hc, fun hc' => hnull (hc' ▸ hc)⟩
  rw [hnameable]
  unfold pathObstacle?
  dsimp only
  split
  · next e he => simp [he]
  · next he =>
    simp only [contains_iff_mem]
    split_ifs with hnull hlong
    · simp [hnull]
    · simp [he, hnull]
    · simp [he, hnull]

theorem nameable_text_iff {p : Path} : (∀ c ∈ p.text, isNameable c = true) ↔
    (∀ c ∈ p.root, isNameable c = true) ∧ ∀ part ∈ p.parts, ∀ c ∈ part, isNameable c = true := by
  have hslash : ∀ c ∈ ("/" : Text), isNameable c = true := by decide
  unfold Path.text
  split
  · next hempty =>
    simp only [Bool.and_eq_true, List.isEmpty_iff] at hempty
    rw [hempty.1, hempty.2]
    decide
  · rw [forall_mem_append, Text.forall_mem_join_iff hslash]

theorem advance_parts (p : Path) (part : Text) :
    (p.advance part).root = p.root ∧ ∀ q ∈ (p.advance part).parts, q ∈ p.parts ∨ q = part := by
  have hadded : ∀ q ∈ p.parts ++ [part], q ∈ p.parts ∨ q = part := by simp
  unfold Path.advance
  split_ifs with hforth
  · exact ⟨rfl, hadded⟩
  · exact ⟨rfl, fun q hq => .inl hq⟩
  · rw [ne_eq, not_not] at hforth
    exact ⟨rfl, hforth ▸ hadded⟩
  · exact ⟨rfl, fun q hq => .inl (mem_of_mem_dropLast hq)⟩

theorem mem_way_go {reached q : Path} {parts : List Text} (h : q ∈ Path.way.go reached parts) :
    q.root = reached.root ∧ ∀ part ∈ q.parts, part ∈ reached.parts ∨ part ∈ parts := by
  induction parts generalizing reached with
  | nil => cases h
  | cons part parts ih =>
    obtain ⟨hroot, hadvance⟩ := advance_parts reached part
    have hparts : ∀ q ∈ (reached.advance part).parts, q ∈ reached.parts ∨ q ∈ part :: parts := by
      intro q hq
      rcases hadvance q hq with hq | rfl
      · exact .inl hq
      · exact .inr mem_cons_self
    rw [Path.way.go] at h
    rcases mem_cons.mp h with rfl | h
    · exact ⟨hroot, hparts⟩
    · obtain ⟨hroot', hparts'⟩ := ih h
      refine ⟨hroot'.trans hroot, fun q hq => ?_⟩
      rcases hparts' q hq with hq | hq
      · exact hparts q hq
      · exact .inr (mem_cons_of_mem part hq)

/-- What lies on the way to a path that can be followed can be looked at, unless it is too long. -/
theorem usable_way {p q : Path} (h : pathObstacle? p = none) (hq : q ∈ p.way) :
    pathObstacle? q = none ∨ pathObstacle? q = some .nameTooLong := by
  obtain ⟨hroot, hparts⟩ := mem_way_go hq
  obtain ⟨hp, hpp⟩ := nameable_text_iff.mp (usable_iff.mp (.inl h))
  refine usable_iff.mpr (nameable_text_iff.mpr ⟨?_, fun part hpart => ?_⟩)
  · rw [hroot]
    exact hp
  · exact hpp part ((hparts part hpart).resolve_left not_mem_nil)

end PluginKit.Files

namespace PluginKit.Console

open Files

theorem completes_requireUsable_of {w : Surroundings} {s : Session} {paths : List Path}
    (h : ∀ p ∈ paths, pathObstacle? p = none ∨ pathObstacle? p = some .nameTooLong) :
    Completes (Session.requireUsable paths) w s () s := by
  induction paths with
  | nil => rfl
  | cons p paths ih =>
    obtain ⟨hp, hpaths⟩ := List.forall_mem_cons.mp h
    rw [Session.requireUsable]
    rcases hp with hp | hp
    · rw [hp]
      exact ih hpaths
    · rw [hp]
      exact ih hpaths

theorem steady_resolve (p : Path) : Steady Stop.IsPlain (Session.resolve p) := by
  have husable (paths : List Path) : Steady Stop.IsPlain (Session.requireUsable paths) := by
    induction paths with
    | nil => exact steady_pure _
    | cons q paths ih =>
      rw [Session.requireUsable]
      dsimp only
      split
      · exact ih
      · exact ih
      · exact (steady_fail (Obstacle.isPlain _ q)).bind fun _ => ih
  exact (husable p.way).bind fun _ => steady_read.bind fun _ => steady_pure _

/-- **A path that can be followed can be resolved.** -/
theorem completes_resolve_of {w : Surroundings} {s : Session} {p : Path} (h : pathObstacle? p = none) :
    Completes (Session.resolve p) w s (p.resolve w.directory) s :=
  Completes.bind (completes_requireUsable_of fun _ hq => usable_way h hq)
    (Completes.bind (completes_read_iff.mpr ⟨rfl, rfl⟩) rfl)

end PluginKit.Console
