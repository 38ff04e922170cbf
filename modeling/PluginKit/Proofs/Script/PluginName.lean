import PluginKit.Proofs.Files.Directory
import PluginKit.Script.Name

/-!
# Names of plugins

The name of a plugin consists of name characters, with at most a line end behind them (`isNameChar_of_isPluginName`), so
that it is one part of a path (`plainPart_of_isPluginName`).
-/

namespace PluginKit.Script

theorem isNameChar_of_nameTail {s : Text} {c : CodePoint} (h : nameTail s = true) (hc : c ∈ s) :
    isNameChar c = true ∨ c = '\n' := by
  induction s with
  | nil => cases hc
  | cons d s ih =>
    unfold nameTail at h
    split at h
    · next hd => cases hd
    · next hd =>
      cases hd
      exact .inr (List.mem_singleton.mp hc)
    · next hd =>
      cases hd
      rw [Bool.and_eq_true] at h
      rcases List.mem_cons.mp hc with rfl | hc
      · exact .inl h.1
      · exact ih h.2 hc

theorem isNameChar_of_isPluginName {name : Text} {c : CodePoint} (h : isPluginName name = true) (hc : c ∈ name) :
    isNameChar c = true ∨ c = '\n' := by
  unfold isPluginName at h
  split at h
  · cases hc
  · rw [Bool.and_eq_true] at h
    rcases List.mem_cons.mp hc with rfl | hc
    · exact .inl (by rw [isNameChar, h.1, Bool.true_or, Bool.true_or])
    · exact isNameChar_of_nameTail h.2 hc

theorem not_mem_of_isPluginName {name : Text} {c : CodePoint} (h : isPluginName name = true)
    (hc : isNameChar c = false) (hline : c ≠ '\n') : c ∉ name := by
  intro hmem
  rcases isNameChar_of_isPluginName h hmem with h | h
  · rw [hc] at h
    cases h
  · exact hline h

theorem plainPart_of_isPluginName {name : Text} (h : isPluginName name = true) : Files.Tree.PlainPart name := by
  have hslash : CodePoint.scalar '/' ∉ name := not_mem_of_isPluginName h (by decide) (by decide)
  have hdot : CodePoint.scalar '.' ∉ name := not_mem_of_isPluginName h (by decide) (by decide)
  cases name with
  | nil => cases h
  | cons c cs =>
    refine Files.Tree.plainPart_of_not_mem hslash fun hc => hdot ?_
    rw [hc]
    exact List.mem_cons_self

end PluginKit.Script
