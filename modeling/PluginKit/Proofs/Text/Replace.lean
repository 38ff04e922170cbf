import Mathlib.Tactic
import PluginKit.Text.Basic

/-!
# Replacing in a text

How replacing goes through a text: it passes a character at which the text that is looked for does not begin, and
where it does begin, goes on behind it. A text without the first character of what is looked for stays as it is
(`replaceAll_append_of_not_mem`), and the two sides of a character that does not occur in what is looked for are
replaced each for itself (`replaceAll_append_cons`). Conversely, a character of the result that was not put there comes
from the text, and the two sides of it were replaced each for itself (`exists_of_replaceAll_eq`).
-/

namespace PluginKit.Text

open List

theorem replaceFrom_eq_drop (old new : Text) : ∀ (skip : Nat) (s : Text),
    replaceFrom old new skip s = replaceAll old new (s.drop skip) := by
  intro skip s
  induction s generalizing skip with
  | nil => cases skip <;> rfl
  | cons c s ih =>
    cases skip with
    | zero => rfl
    | succ skip => exact ih skip

theorem replaceAll_cons {old new : Text} {c : CodePoint} {s : Text} (h : ¬ old <+: c :: s) :
    replaceAll old new (c :: s) = c :: replaceAll old new s := by
  have hnot : ¬ old.isPrefixOf (c :: s) = true := fun hp => h <| isPrefixOf_iff_prefix.mp hp
  rw [replaceAll, replaceFrom, if_neg hnot]
  rfl

theorem replaceAll_append_self (first : CodePoint) (old new s : Text) :
    replaceAll (first :: old) new (first :: old ++ s) = new ++ replaceAll (first :: old) new s := by
  have hpre : (first :: old).isPrefixOf (first :: (old ++ s)) = true :=
    isPrefixOf_iff_prefix.mpr (prefix_append (first :: old) s)
  rw [cons_append, replaceAll, replaceFrom, if_pos hpre, replaceFrom_eq_drop]
  simp only [length_cons, Nat.add_sub_cancel, drop_left]

theorem replaceAll_append_of_not_mem {first : CodePoint} {u : Text} (h : first ∉ u) (old new s : Text) :
    replaceAll (first :: old) new (u ++ s) = u ++ replaceAll (first :: old) new s := by
  induction u with
  | nil => rfl
  | cons c u ih =>
    rw [mem_cons, not_or] at h
    rw [cons_append, replaceAll_cons, ih h.2, cons_append]
    exact fun hp => h.1 (cons_prefix_cons.mp hp).1

/-- What is looked for does not reach over a character that does not occur in it. -/
theorem prefix_of_prefix_append_cons {old s t : Text} {sep : CodePoint} (hsep : sep ∉ old) (h : old <+: s ++ sep :: t) :
    old <+: s := by
  rcases prefix_or_prefix_of_prefix h (prefix_append s (sep :: t)) with hs | ⟨rest, rfl⟩
  · exact hs
  · have hrest : rest <+: sep :: t := (prefix_append_right_inj s).mp h
    cases rest with
    | nil => rw [append_nil]
    | cons c rest =>
      have hc : c = sep := (cons_prefix_cons.mp hrest).1
      subst hc
      exact absurd (mem_append_right s mem_cons_self) hsep

theorem replaceAll_append_cons {first : CodePoint} {old : Text} {sep : CodePoint} (hsep : sep ∉ first :: old)
    (new s t : Text) : replaceAll (first :: old) new (s ++ sep :: t)
      = replaceAll (first :: old) new s ++ sep :: replaceAll (first :: old) new t := by
  -- The induction is on the length, since an occurrence is passed as a whole.
  induction hn : s.length using Nat.strong_induction_on generalizing s with
  | _ n ih =>
    cases s with
    | nil =>
      have hnot : ¬ first :: old <+: sep :: t := by
        intro h
        exact hsep (by rw [(cons_prefix_cons.mp h).1]; exact mem_cons_self)
      exact replaceAll_cons hnot
    | cons c s =>
      by_cases h : first :: old <+: c :: s
      · obtain ⟨rest, hrest⟩ := h
        have hlen : rest.length < n := by
          rw [← hn, ← hrest, length_append, length_cons]
          omega
        rw [← hrest, append_assoc, replaceAll_append_self, replaceAll_append_self, ih rest.length hlen rest rfl,
          append_assoc]
      · have hlong : ¬ first :: old <+: c :: (s ++ sep :: t) := fun hp => h (prefix_of_prefix_append_cons hsep hp)
        have hlen : s.length < n := by
          rw [← hn, length_cons]
          omega
        rw [cons_append, replaceAll_cons hlong, replaceAll_cons h, ih s.length hlen s rfl, cons_append]

/-- Nothing is in the result that was not in the text or in what takes the place of something. -/
theorem mem_of_mem_replaceFrom {old new : Text} {c : CodePoint} {skip : Nat} {s : Text}
    (h : c ∈ replaceFrom old new skip s) : c ∈ new ∨ c ∈ s := by
  induction s generalizing skip with
  | nil =>
    cases skip <;> cases h
  | cons d s ih =>
    have hlater : c ∈ new ∨ c ∈ s → c ∈ new ∨ c ∈ d :: s := fun h => h.imp_right (mem_cons_of_mem _)
    cases skip with
    | succ skip => exact hlater (ih h)
    | zero =>
      rw [replaceFrom] at h
      split at h
      · rcases mem_append.mp h with h | h
        · exact .inl h
        · exact hlater (ih h)
      · rcases mem_cons.mp h with rfl | h
        · exact .inr mem_cons_self
        · exact hlater (ih h)

theorem mem_of_mem_replaceAll {old new s : Text} {c : CodePoint} (h : c ∈ replaceAll old new s) : c ∈ new ∨ c ∈ s :=
  mem_of_mem_replaceFrom h

/-! ### Where replacing begins -/

section
variable {first : CodePoint} {old new s x y : Text} {c : CodePoint}

theorem replaceAll_of_absent (h : ¬ first :: old <:+: s) (new : Text) : replaceAll (first :: old) new s = s := by
  induction s with
  | nil => rfl
  | cons d s ih =>
    rw [replaceAll_cons fun hp => h hp.isInfix, ih fun hi => h (infix_cons hi)]

theorem exists_first (h : first :: old <:+: s) (new : Text) : ∃ u rest, s = u ++ (first :: old ++ rest) ∧
    replaceAll (first :: old) new s = u ++ (new ++ replaceAll (first :: old) new rest) := by
  induction s with
  | nil => cases infix_nil.mp h
  | cons d s ih =>
    by_cases hp : first :: old <+: d :: s
    · obtain ⟨rest, hrest⟩ := hp
      refine ⟨[], rest, hrest.symm, ?_⟩
      rw [← hrest, replaceAll_append_self]
      rfl
    · obtain ⟨u, rest, rfl, hreplace⟩ := ih ((infix_cons_iff.mp h).resolve_left hp)
      refine ⟨d :: u, rest, rfl, ?_⟩
      rw [replaceAll_cons hp, hreplace]
      rfl

/-- What begins the result begins the text, unless something was replaced before its end. -/
theorem prefix_of_prefix_replaceAll (h : x <+: replaceAll (first :: old) new s) :
    x <+: s ∨ ∃ u rest, s = u ++ (first :: old ++ rest) ∧ u <+: x ∧ u ≠ x := by
  by_cases hold : first :: old <:+: s
  · obtain ⟨u, rest, rfl, hreplace⟩ := exists_first hold new
    rw [hreplace] at h
    rcases prefix_or_prefix_of_prefix h (prefix_append u _) with hx | hu
    · exact .inl (hx.trans (prefix_append u _))
    · by_cases hux : u = x
      · exact .inl (hux ▸ prefix_append u _)
      · exact .inr ⟨u, rest, rfl, hu, hux⟩
  · rw [replaceAll_of_absent hold] at h
    exact .inl h

/-- A character of the result that was not put there comes from the text. -/
theorem exists_of_replaceAll_eq (hc : c ∉ new) (h : replaceAll (first :: old) new s = x ++ c :: y) :
    ∃ a b, s = a ++ c :: b ∧ x = replaceAll (first :: old) new a ∧ y = replaceAll (first :: old) new b ∧
      ¬ first :: old <+: c :: b := by
  -- The induction is on the length, since an occurrence is passed as a whole.
  induction hn : s.length using Nat.strong_induction_on generalizing s x with
  | _ n ih =>
    cases s with
    | nil =>
      have hnil : ([] : Text) = x ++ c :: y := h
      simp at hnil
    | cons d s =>
      by_cases hp : first :: old <+: d :: s
      · obtain ⟨rest, hrest⟩ := hp
        have hlen : rest.length < n := by
          rw [← hn, ← hrest, length_append, length_cons]
          omega
        rw [← hrest, replaceAll_append_self] at h
        rcases append_eq_append_iff.mp h with ⟨x', rfl, hy⟩ | ⟨new', hnew, hy⟩
        · obtain ⟨a, b, rfl, rfl, hb, hnot⟩ := ih rest.length hlen hy rfl
          refine ⟨first :: old ++ a, b, ?_, (replaceAll_append_self first old new a).symm, hb, hnot⟩
          rw [← hrest, append_assoc]
        · cases new' with
          | nil =>
            rw [append_nil] at hnew
            obtain ⟨a, b, rfl, hx, hb, hnot⟩ := ih rest.length hlen (x := []) hy.symm rfl
            refine ⟨first :: old ++ a, b, ?_, ?_, hb, hnot⟩
            · rw [← hrest, append_assoc]
            · rw [replaceAll_append_self, ← hx, append_nil, hnew]
          | cons e new' =>
            obtain rfl : c = e := (List.cons.inj hy).1
            exact absurd (hnew ▸ mem_append_right x mem_cons_self) hc
      · rw [replaceAll_cons hp] at h
        cases x with
        | nil =>
          obtain ⟨rfl, rfl⟩ := List.cons.inj h
          exact ⟨[], s, rfl, rfl, rfl, hp⟩
        | cons e x =>
          obtain ⟨rfl, hx⟩ := List.cons.inj h
          have hlen : s.length < n := by
            rw [← hn, length_cons]
            omega
          obtain ⟨a, b, rfl, rfl, hb, hnot⟩ := ih s.length hlen hx rfl
          refine ⟨d :: a, b, rfl, ?_, hb, hnot⟩
          rw [replaceAll_cons fun ha => hp (ha.trans (prefix_append (d :: a) (c :: b)))]

theorem eq_nil_of_replaceAll_eq_nil (hnew : new ≠ []) (h : replaceAll (first :: old) new s = []) : s = [] := by
  cases s with
  | nil => rfl
  | cons d s =>
    by_cases hp : first :: old <+: d :: s
    · obtain ⟨rest, hrest⟩ := hp
      rw [← hrest, replaceAll_append_self] at h
      exact absurd (append_eq_nil_iff.mp h).1 hnew
    · rw [replaceAll_cons hp] at h
      cases h

end

end PluginKit.Text
