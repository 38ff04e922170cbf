import Mathlib.Tactic
import PluginKit.Value.Access

/-!
# Steps that may fail

What is known after steps that did not fail: each of them did not (`bind_eq_ok`, `mapM_eq_ok_iff`). Then what was
looked up in a value is really there, and two sequences that could be put together have their elements one after the
other (`elements_append`).
-/

namespace PluginKit.Value

section
variable {α β : Type}

theorem bind_eq_ok {x : Outcome α} {f : α → Outcome β} {b : β} : x >>= f = .ok b ↔ ∃ a, x = .ok a ∧ f a = .ok b := by
  cases x with
  | error e => exact ⟨fun h => (by cases h), fun ⟨_, h, _⟩ => (by cases h)⟩
  | ok a => exact ⟨fun h => ⟨a, rfl, h⟩, fun ⟨_, h, hb⟩ => by cases h; exact hb⟩

theorem ok_bind (a : α) (f : α → Outcome β) : (.ok a : Outcome α) >>= f = f a := rfl

theorem bind_eq_error {x : Outcome α} {f : α → Outcome β} {e : Fault} :
    x >>= f = .error e ↔ x = .error e ∨ ∃ a, x = .ok a ∧ f a = .error e := by
  cases x with
  | error e' =>
    constructor
    · intro h
      cases h
      exact .inl rfl
    · rintro (h | ⟨a, ha, -⟩)
      · cases h
        rfl
      · cases ha
  | ok a =>
    constructor
    · exact fun h => .inr ⟨a, rfl, h⟩
    · rintro (h | ⟨b, hb, h⟩)
      · cases h
      · cases hb
        exact h

theorem map_eq_ok {x : Outcome α} {f : α → β} {b : β} : x.map f = .ok b ↔ ∃ a, x = .ok a ∧ f a = b := by
  cases x with
  | error e => exact ⟨fun h => (by cases h), fun ⟨_, h, _⟩ => (by cases h)⟩
  | ok a => exact ⟨fun h => ⟨a, rfl, Except.ok.inj h⟩, fun ⟨_, h, hb⟩ => by cases h; rw [← hb]; rfl⟩

theorem mapM_eq_ok_iff {f : α → Outcome β} {xs : List α} {ys : List β} :
    xs.mapM f = .ok ys ↔ List.Forall₂ (fun x y => f x = .ok y) xs ys := by
  induction xs generalizing ys with
  | nil =>
    rw [List.mapM_nil]
    constructor
    · intro h
      cases h
      exact .nil
    · intro h
      cases h
      rfl
  | cons x xs ih =>
    rw [List.mapM_cons, bind_eq_ok]
    constructor
    · rintro ⟨y, hy, h⟩
      obtain ⟨rest, hrest, he⟩ := bind_eq_ok.mp h
      cases he
      exact .cons hy (ih.mp hrest)
    · intro h
      cases h with
      | @cons _ y _ rest hy hrest => exact ⟨y, hy, bind_eq_ok.mpr ⟨rest, ih.mpr hrest, rfl⟩⟩

end

/-! ### Looking up -/

theorem text_eq_ok {v : Value} {s : Text} : v.text = .ok s ↔ v = .str s := by
  constructor
  · intro h
    unfold text at h
    split at h
    · cases h
      rfl
    · cases h
    · cases h
  · rintro rfl
    rfl

theorem isStr_iff {v : Value} {s : Text} : v.isStr s = true ↔ v = .str s := by
  constructor
  · intro h
    unfold isStr at h
    split at h
    · rw [beq_iff_eq.mp h]
    · cases h
  · rintro rfl
    exact beq_self_eq_true s

/-- What is found and is not the default does not depend on the default. -/
theorem get_of_ne_default {v w default : Value} {key : Text} (h : v.get key default = .ok w) (hne : w ≠ default)
    (other : Value) : v.get key other = .ok w := by
  unfold get at h ⊢
  split at h
  · next entries hview =>
    cases hf : field? key entries with
    | none =>
      rw [hf] at h
      cases h
      exact absurd rfl hne
    | some x =>
      rw [hf] at h
      cases h
      rfl
  · cases h

/-! ### Sequences one after the other -/

theorem elements_append {v w both : Value} (h : v.append w = .ok both) :
    ∃ xs ys, v.elements = .ok xs ∧ w.elements = .ok ys ∧ both.elements = .ok (xs ++ ys) := by
  unfold append at h
  split at h
  · next xs ys hv hw =>
    cases h
    exact ⟨xs, ys, by simp [elements, elements?, hv], by simp [elements, elements?, hw], rfl⟩
  · next xs ys hv hw =>
    cases h
    exact ⟨xs, ys, by simp [elements, elements?, hv], by simp [elements, elements?, hw], rfl⟩
  · next s t hv hw =>
    cases h
    refine ⟨s.map fun c => str [c], t.map fun c => str [c], by simp [elements, elements?, hv],
      by simp [elements, elements?, hw], ?_⟩
    rw [← List.map_append]
    rfl
  · next a b hv hw =>
    cases h
    refine ⟨a.map fun n => int n.toNat, b.map fun n => int n.toNat, by simp [elements, elements?, hv],
      by simp [elements, elements?, hw], ?_⟩
    rw [← List.map_append]
    rfl
  · cases h

end PluginKit.Value
