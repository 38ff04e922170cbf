import PluginKit.Proofs.Text.Runs
import PluginKit.Text.Utf8

/-!
# Texts that have a UTF-8 form

A text has a UTF-8 form unless it holds half of a surrogate pair (`checkUtf8_eq_ok_iff`). A text that is put together
has one if its parts do.
-/

namespace PluginKit

open List

variable {c : CodePoint} {s t : Text}

/-- The text has a UTF-8 form. -/
def Encodable (s : Text) : Prop := ∀ c ∈ s, c.isSurrogate = false

theorem encodable_map_scalar (cs : List Char) : Encodable (cs.map CodePoint.scalar) := by
  intro c hc
  obtain ⟨d, -, rfl⟩ := mem_map.mp hc
  rfl

@[simp]
theorem encodable_ofString (s : String) : Encodable (Text.ofString s) := encodable_map_scalar s.toList

@[simp]
theorem encodable_nil : Encodable [] := by
  intro c hc
  cases hc

theorem Encodable.cons (hc : c.isSurrogate = false) (hs : Encodable s) : Encodable (c :: s) :=
  forall_mem_cons.mpr ⟨hc, hs⟩

theorem Encodable.append (hs : Encodable s) (ht : Encodable t) : Encodable (s ++ t) :=
  forall_mem_append.mpr ⟨hs, ht⟩

@[simp]
theorem encodable_append_iff : Encodable (s ++ t) ↔ Encodable s ∧ Encodable t := forall_mem_append

theorem encodable_times (hc : c.isSurrogate = false) (n : Nat) : Encodable (Text.times n c) := by
  intro d hd
  rw [eq_of_mem_replicate hd]
  exact hc

theorem encodable_join {sep : Text} (hsep : Encodable sep) {texts : List Text} (h : ∀ s ∈ texts, Encodable s) :
    Encodable (Text.join sep texts) := (Text.forall_mem_join_iff hsep).mpr h

theorem firstSurrogates?_eq_none_iff (position : Nat) : Text.firstSurrogates? position s = none ↔ Encodable s := by
  induction s generalizing position with
  | nil => exact iff_of_true rfl nofun
  | cons c s ih =>
    rw [Text.firstSurrogates?, Encodable, forall_mem_cons]
    by_cases hc : c.isSurrogate = true
    · simp [hc]
    · rw [if_neg hc, ih, Encodable]
      simp [hc]

theorem checkUtf8_eq_ok_iff : Text.checkUtf8 s = .ok () ↔ Encodable s := by
  rw [← firstSurrogates?_eq_none_iff 0, Text.checkUtf8]
  cases Text.firstSurrogates? 0 s with
  | none => simp
  | some e => simp

theorem firstSurrogates?_append (ht : Encodable t) (position : Nat) (s : Text) :
    Text.firstSurrogates? position (s ++ t) = Text.firstSurrogates? position s := by
  induction s generalizing position with
  | nil => exact (firstSurrogates?_eq_none_iff position).mpr ht
  | cons c s ih =>
    rw [cons_append, Text.firstSurrogates?, Text.firstSurrogates?, ih]
    -- A run of halves that reaches the end of `s` does not go on in `t`.
    have hrun : (s ++ t).takeWhile CodePoint.isSurrogate = s.takeWhile CodePoint.isSurrogate := by
      rw [takeWhile_append]
      split
      · next hall =>
        have htail : t.takeWhile CodePoint.isSurrogate = [] := by
          cases t with
          | nil => rfl
          | cons d t => rw [takeWhile_cons_of_neg (by simp [ht d mem_cons_self])]
        rw [htail, append_nil, IsPrefix.eq_of_length ( takeWhile_prefix _) hall]
      · rfl
    rw [hrun]

/-- Whether a text can be written does not depend on an end that can. -/
theorem checkUtf8_append (ht : Encodable t) (s : Text) : Text.checkUtf8 (s ++ t) = Text.checkUtf8 s := by
  rw [Text.checkUtf8, Text.checkUtf8, firstSurrogates?_append ht]

end PluginKit
