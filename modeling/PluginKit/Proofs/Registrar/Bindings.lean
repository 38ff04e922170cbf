import Mathlib.Tactic
import PluginKit.Proofs.Text.Digits
import PluginKit.Registrar.Execute
import PluginKit.Role

/-!
# Bindings of the registrar

The registrar keeps a map for each role. Names that are the same key are the same to every lookup
(`sameKey_congr`), so a component that is put among others takes the place of the one with its name and hides no
other (`Placed`): a lookup finds it under its own name and what was there before under any other (`Placed.find?_eq`).
-/

namespace PluginKit.Registrar

open List

/-! ### Keys -/

section
open Float.Model

theorem then_eq_iff (e f : Int) (m n : Nat) : (compare e f).then (compare m n) = .eq ↔ m = n ∧ e = f := by
  rw [Ordering.then_eq_eq, compare_eq_iff_eq, compare_eq_iff_eq, and_comm]

theorem finite_beq_iff (s t : UnpackedFloat.Sign) {m n : Nat} (e f : Int) (hm : 0 < m) (hn : 0 < n) :
    (UnpackedFloat.finite s m e hm).beq (.finite t n f hn) = true ↔ s = t ∧ m = n ∧ e = f := by
  cases s with
  | negative =>
    cases t with
    | positive => exact iff_of_false (fun h => by cases h) (fun h => by cases h.1)
    | negative =>
      show (some ((compare e f).then (compare m n)).swap == some Ordering.eq) = true ↔ _
      rw [beq_iff_eq, Option.some.injEq, Ordering.swap_eq_eq, then_eq_iff]
      exact (and_iff_right rfl).symm
  | positive =>
    cases t with
    | negative => exact iff_of_false (fun h => by cases h) (fun h => by cases h.1)
    | positive =>
      show (some ((compare e f).then (compare m n)) == some Ordering.eq) = true ↔ _
      rw [beq_iff_eq, Option.some.injEq, then_eq_iff]
      exact (and_iff_right rfl).symm

/-- Numbers are equal if they have the same parts, or if both are zero, whatever their signs. -/
theorem unpacked_beq_iff (a b : UnpackedFloat) :
    a.beq b = true ↔ (a = b ∧ a ≠ .notANumber) ∨ ∃ s t, a = .zero s ∧ b = .zero t := by
  have hother : ∀ {a b : UnpackedFloat}, a.beq b = false → (a = b → a = .notANumber) →
      (∀ s t, a = .zero s → b ≠ .zero t) →
      (a.beq b = true ↔ (a = b ∧ a ≠ .notANumber) ∨ ∃ s t, a = .zero s ∧ b = .zero t) := by
    intro a b hbeq heq hzero
    refine iff_of_false (by rw [hbeq]; decide) ?_
    rintro (⟨he, hn⟩ | ⟨s, t, hs, ht⟩)
    · exact hn (heq he)
    · exact hzero s t hs ht
  cases a with
  | notANumber => exact hother rfl (fun _ => rfl) (fun s t h => by cases h)
  | infinity s =>
    cases b with
    | infinity t =>
      by_cases hst : s = t
      · subst hst
        cases s <;> exact iff_of_true rfl (.inl ⟨rfl, fun h => by cases h⟩)
      · refine hother ?_ (fun h => absurd (UnpackedFloat.infinity.inj h) hst) (fun s t h => by cases h)
        cases s <;> cases t <;> first | rfl | exact absurd rfl hst
    | notANumber => cases s <;> exact hother rfl (fun h => by cases h) (fun s t h => by cases h)
    | zero t => cases s <;> exact hother rfl (fun h => by cases h) (fun s t h => by cases h)
    | finite t n f hn => cases s <;> exact hother rfl (fun h => by cases h) (fun s t h => by cases h)
  | zero s =>
    cases b with
    | zero t => exact iff_of_true rfl (.inr ⟨s, t, rfl, rfl⟩)
    | infinity t => cases t <;> exact hother rfl (fun h => by cases h) (fun s t _ h => by cases h)
    | notANumber => exact hother rfl (fun h => by cases h) (fun s t _ h => by cases h)
    | finite t n f hn => cases t <;> exact hother rfl (fun h => by cases h) (fun s t _ h => by cases h)
  | finite s m e hm =>
    cases b with
    | finite t n f hn =>
      rw [finite_beq_iff, UnpackedFloat.finite.injEq]
      constructor
      · exact fun h => .inl ⟨h, fun h => by cases h⟩
      · rintro (⟨h, -⟩ | ⟨_, _, h, -⟩)
        · exact h
        · cases h
    | infinity t => cases t <;> exact hother rfl (fun h => by cases h) (fun s t h => by cases h)
    | notANumber => cases s <;> exact hother rfl (fun h => by cases h) (fun s t h => by cases h)
    | zero t => cases s <;> exact hother rfl (fun h => by cases h) (fun s t h => by cases h)

end

theorem float_beq_iff (x y : Float) : (x == y) = true ↔
    (x.toModel.unpack = y.toModel.unpack ∧ x.toModel.unpack ≠ .notANumber) ∨
      ∃ s t, x.toModel.unpack = .zero s ∧ y.toModel.unpack = .zero t :=
  unpacked_beq_iff x.toModel.unpack y.toModel.unpack

theorem float_beq_symm {x y : Float} (h : (x == y) = true) : (y == x) = true := by
  rw [float_beq_iff] at h ⊢
  rcases h with ⟨hxy, hx⟩ | ⟨s, t, hs, ht⟩
  · exact .inl ⟨hxy.symm, hxy ▸ hx⟩
  · exact .inr ⟨t, s, ht, hs⟩

theorem float_beq_trans {x y z : Float} (hxy : (x == y) = true) (hyz : (y == z) = true) : (x == z) = true := by
  rw [float_beq_iff] at hxy hyz ⊢
  rcases hxy with ⟨hxy, hx⟩ | ⟨s, t, hs, ht⟩
  · rw [hxy] at hx ⊢
    exact hyz
  · rcases hyz with ⟨hyz, -⟩ | ⟨t', u, -, hu⟩
    · exact .inr ⟨s, t, hs, hyz ▸ ht⟩
    · exact .inr ⟨s, u, hs, hu⟩

theorem sameKey_symm {a b : Datum} (h : a.sameKey b = true) : b.sameKey a = true := by
  unfold Datum.sameKey at h
  split at h
  · exact beq_iff_eq.mpr (beq_iff_eq.mp h).symm
  · exact float_beq_symm h
  · exact beq_iff_eq.mpr (beq_iff_eq.mp h).symm
  · cases h

theorem sameKey_trans {a b c : Datum} (hab : a.sameKey b = true) (hbc : b.sameKey c = true) : a.sameKey c = true := by
  unfold Datum.sameKey at hab
  split at hab
  · rw [beq_iff_eq.mp hab]
    exact hbc
  · next x y =>
    cases c with
    | number z => exact float_beq_trans hab hbc
    | _ => cases hbc
  · rw [beq_iff_eq.mp hab]
    exact hbc
  · cases hab

theorem sameKey_congr {a b : Datum} (h : a.sameKey b = true) (d : Datum) : a.sameKey d = b.sameKey d :=
  Bool.eq_iff_iff.mpr ⟨sameKey_trans (sameKey_symm h), sameKey_trans h⟩

theorem sameKey_comm (a b : Datum) : a.sameKey b = b.sameKey a :=
  Bool.eq_iff_iff.mpr ⟨sameKey_symm, sameKey_symm⟩

/-! ### Putting a component among others -/

/-- Where a component goes among others: into the place of the one with its name, or behind them all. -/
inductive Placed (c : Component) : List Component → List Component → Prop where
  | inPlace (front : List Component) (old : Component) (back : List Component)
    (hfront : ∀ d ∈ front, d.name.sameKey c.name = false) (hold : old.name.sameKey c.name = true) :
    Placed c (front ++ old :: back) (front ++ c :: back)
  | atEnd (others : List Component) (hothers : ∀ d ∈ others, d.name.sameKey c.name = false) :
    Placed c others (others ++ [c])

theorem placed_put (c : Component) (cs : List Component) : Placed c cs (put c cs) := by
  induction cs with
  | nil => exact .atEnd [] nofun
  | cons old cs ih =>
    rw [put]
    cases h : old.name.sameKey c.name with
    | true => exact .inPlace [] old cs nofun h
    | false =>
      simp only [Bool.false_eq_true, if_false]
      generalize put c cs = cs' at ih
      cases ih with
      | inPlace front x back hfront hx =>
        exact .inPlace (old :: front) x back (forall_mem_cons.mpr ⟨h, hfront⟩) hx
      | atEnd others hothers => exact .atEnd (old :: cs) (forall_mem_cons.mpr ⟨h, hothers⟩)

/-- No two components have names that are the same key. -/
def Distinct (cs : List Component) : Prop := cs.Pairwise fun a b => a.name.sameKey b.name = false

theorem find?_eq_none {name : Datum} {cs : List Component} (h : ∀ d ∈ cs, d.name.sameKey name = false) :
    find? name cs = none := by
  rw [find?, List.find?_eq_none]
  intro d hd hsame
  rw [h d hd] at hsame
  cases hsame

theorem find?_append (name : Datum) (cs ds : List Component) :
    find? name (cs ++ ds) = (find? name cs).or (find? name ds) := List.find?_append

theorem find?_of_sameKey {name : Datum} {c : Component} (h : c.name.sameKey name = true) (cs : List Component) :
    find? name (c :: cs) = some c := find?_cons_of_pos h

theorem find?_of_not_sameKey {name : Datum} {c : Component} (h : c.name.sameKey name = false) (cs : List Component) :
    find? name (c :: cs) = find? name cs := find?_cons_of_neg (by rw [h]; exact Bool.false_ne_true)

namespace Placed

variable {c : Component} {cs cs' : List Component}

/-- **A lookup among the components with one more**: it finds this one under its name, and what it found before under
any other. -/
theorem find?_eq (h : Placed c cs cs') (name : Datum) :
    find? name cs' = if c.name.sameKey name then some c else find? name cs := by
  -- A component with another name than the new one is no match under the new one's name.
  have hother : ∀ {ds : List Component}, (∀ d ∈ ds, d.name.sameKey c.name = false) → c.name.sameKey name = true →
      find? name ds = none := by
    intro ds hds hname
    refine find?_eq_none fun d hd => ?_
    rw [sameKey_comm, ← sameKey_congr hname, sameKey_comm]
    exact hds d hd
  cases hname : c.name.sameKey name with
  | true =>
    rw [if_pos rfl]
    cases h with
    | inPlace front old back hfront hold =>
      rw [find?_append, hother hfront hname, Option.none_or, find?_of_sameKey hname]
    | atEnd _ hothers =>
      rw [find?_append, hother hothers hname, Option.none_or, find?_of_sameKey hname]
  | false =>
    rw [if_neg Bool.false_ne_true]
    cases h with
    | inPlace front old back hfront hold =>
      have hname' : old.name.sameKey name = false := by rw [sameKey_congr hold, hname]
      rw [find?_append, find?_append, find?_of_not_sameKey hname, find?_of_not_sameKey hname']
    | atEnd _ hothers =>
      rw [find?_append, find?_of_not_sameKey hname]
      exact Option.or_none

theorem mem_or_eq (h : Placed c cs cs') : ∀ d ∈ cs', d = c ∨ d ∈ cs := by
  intro d hd
  cases h with
  | inPlace front old back hfront hold =>
    simp only [mem_append, mem_cons] at hd ⊢
    tauto
  | atEnd _ hothers =>
    simp only [mem_append, mem_singleton] at hd
    exact hd.symm

theorem distinct (h : Placed c cs cs') (hcs : Distinct cs) : Distinct cs' := by
  cases h with
  | inPlace front old back hfront hold =>
    obtain ⟨hf, hb, hfb⟩ := pairwise_append.mp hcs
    obtain ⟨hback, hb⟩ := pairwise_cons.mp hb
    refine pairwise_append.mpr ⟨hf, pairwise_cons.mpr ⟨fun d hd => ?_, hb⟩, fun d hd => ?_⟩
    · rw [← sameKey_congr hold]
      exact hback d hd
    · exact forall_mem_cons.mpr ⟨hfront d hd, fun e he => hfb d hd e (mem_cons_of_mem old he)⟩
  | atEnd _ hothers =>
    refine pairwise_append.mpr ⟨hcs, pairwise_singleton _ _, fun d hd => ?_⟩
    exact forall_mem_singleton.mpr (hothers d hd)

end Placed

/-! ### Both maps -/

def Registry.of (r : Registry) : Role → List Component
  | .command => r.commands
  | .action => r.actions

/-- The registry has one more component of a role, and the other role is as it was. -/
structure Binds (role : Role) (c : Component) (r r' : Registry) : Prop where
  placed : Placed c (r.of role) (r'.of role)
  others : ∀ other, other ≠ role → r'.of other = r.of other

namespace Binds

variable {role : Role} {c : Component} {r r' : Registry}

theorem find?_eq (h : Binds role c r r') (other : Role) (name : Datum) : find? name (r'.of other)
    = if other = role ∧ c.name.sameKey name = true then some c else find? name (r.of other) := by
  by_cases hrole : other = role
  · subst hrole
    rw [h.placed.find?_eq]
    simp
  · rw [h.others other hrole, if_neg fun hand => hrole hand.1]

theorem mem_or_eq (h : Binds role c r r') {other : Role} : ∀ d ∈ r'.of other, other = role ∧ d = c ∨ d ∈ r.of other := by
  intro d hd
  by_cases hrole : other = role
  · subst hrole
    exact (h.placed.mem_or_eq d hd).imp (fun he => ⟨rfl, he⟩) id
  · rw [h.others other hrole] at hd
    exact .inr hd

theorem distinct (h : Binds role c r r') (hr : ∀ other, Distinct (r.of other)) (other : Role) :
    Distinct (r'.of other) := by
  by_cases hrole : other = role
  · subst hrole
    exact h.placed.distinct (hr other)
  · rw [h.others other hrole]
    exact hr other

end Binds

end PluginKit.Registrar
