import Mathlib.Data.List.TakeWhile
import Mathlib.Tactic
import PluginKit.Text.Basic
import PluginKit.Text.Range

/-!
# Runs of characters

A run of characters of one kind, up to the first of another kind, is what `takeWhile` takes and `dropWhile`
leaves. Trimming changes nothing where neither end is to be cut.
-/

namespace PluginKit.Text

open List

variable {p : CodePoint → Bool} {c : CodePoint} {s t sep : Text} {spans : List Nat}

/-- The text does not begin with a character of the kind. -/
def Avoids (p : CodePoint → Bool) (s : Text) : Prop := ∀ c, s.head? = some c → p c = false

theorem avoids_cons (h : p c = false) : Avoids p (c :: s) := by
  intro d hd
  cases hd
  exact h

theorem takeWhile_run (hs : ∀ c ∈ s, p c = true) (ht : Avoids p t) : (s ++ t).takeWhile p = s := by
  rw [takeWhile_append_of_pos hs]
  cases t with
  | nil => rw [takeWhile_nil, append_nil]
  | cons c t => rw [takeWhile_cons_of_neg (by simp [ht c rfl]), append_nil]

theorem dropWhile_run (hs : ∀ c ∈ s, p c = true) (ht : Avoids p t) : (s ++ t).dropWhile p = t := by
  rw [dropWhile_append_of_pos hs]
  cases t with
  | nil => rfl
  | cons c t => rw [dropWhile_cons_of_neg (by simp [ht c rfl])]

theorem dropWhile_of_avoids (h : Avoids p s) : s.dropWhile p = s :=
  dropWhile_run (s := []) nofun h

theorem trim_of_avoids (h : Avoids p s) (hr : Avoids p s.reverse) : trim p s = s := by
  rw [trim, dropWhile_of_avoids h, dropWhile_of_avoids hr, reverse_reverse]

theorem mem_of_mem_trim (h : c ∈ trim p s) : c ∈ s := by
  have h := (dropWhile_suffix p).subset (mem_reverse.mp h)
  exact (dropWhile_suffix p).subset (mem_reverse.mp h)

theorem avoids_of_trim (h : trim p s = c :: t) : p c = false := by
  have hfront : trim p s <+: s.dropWhile p := by
    rw [trim, ← reverse_suffix, reverse_reverse]
    exact dropWhile_suffix p
  have hhead := head?_dropWhile_not p s
  obtain ⟨u, hu⟩ := hfront
  rw [← hu, h] at hhead
  exact hhead

theorem not_mem_takeWhile_ne (c : CodePoint) (s : Text) : c ∉ s.takeWhile (· != c) := by
  intro h
  have := mem_takeWhile_imp h
  simp at this

/-- A text that holds a character is what stands before it, the character, and what stands behind. -/
theorem takeWhile_split (h : c ∈ s) : ∃ v, s = s.takeWhile (· != c) ++ c :: v := by
  induction s with
  | nil => cases h
  | cons d s ih =>
    by_cases hd : d = c
    · subst hd
      exact ⟨s, by rw [takeWhile_cons_of_neg (by simp), nil_append]⟩
    · obtain ⟨v, hv⟩ := ih ((mem_cons.mp h).resolve_left (Ne.symm hd))
      refine ⟨v, ?_⟩
      rw [takeWhile_cons_of_pos (by simpa using hd), cons_append, ← hv]

theorem join_cons (sep s : Text) (texts : List Text) : join sep (s :: texts) = s ++ texts.flatMap (sep ++ ·) := by
  induction texts generalizing s with
  | nil => rw [join, flatMap_nil, append_nil]
  | cons t texts ih =>
    have hjoin : join sep (s :: t :: texts) = s ++ sep ++ join sep (t :: texts) := rfl
    rw [hjoin, ih, flatMap_cons, append_assoc, append_assoc]

/-- What holds of the characters of a separator holds of those of the joined text exactly if it does of those of the
texts. -/
theorem forall_mem_join_iff {p : CodePoint → Prop} (hsep : ∀ c ∈ sep, p c) {texts : List Text} :
    (∀ c ∈ join sep texts, p c) ↔ ∀ s ∈ texts, ∀ c ∈ s, p c := by
  cases texts with
  | nil => exact iff_of_true nofun nofun
  | cons s texts =>
    rw [join_cons, forall_mem_append, forall_mem_cons, forall_mem_flatMap]
    simp only [forall_mem_append, and_iff_right hsep]

theorem join_append {a b : List Text} (ha : a ≠ []) (hb : b ≠ []) :
    join sep (a ++ b) = join sep a ++ sep ++ join sep b := by
  obtain ⟨s, a, rfl⟩ := exists_cons_of_ne_nil ha
  obtain ⟨t, b, rfl⟩ := exists_cons_of_ne_nil hb
  simp only [cons_append, join_cons, flatMap_append, flatMap_cons, append_assoc]

/-! ### Lines -/

theorem splitOn_append_cons {sep : CodePoint} (h : sep ∉ s) (t : Text) :
    splitOn sep (s ++ sep :: t) = s :: splitOn sep t := by
  induction s with
  | nil => rw [nil_append, splitOn, if_pos rfl]
  | cons c s ih =>
    obtain ⟨hc, hs⟩ := not_or.mp fun hmem => h (mem_cons.mpr hmem)
    rw [cons_append, splitOn, if_neg (fun he => hc he.symm), ih hs]

/-- Joined lines are the first lines of a text that goes on behind them. -/
theorem splitOn_join_append {sep : CodePoint} {lines : List Text} (h : ∀ line ∈ s :: lines, sep ∉ line)
    (t : Text) : splitOn sep (join [sep] (s :: lines) ++ sep :: t) = s :: lines ++ splitOn sep t := by
  induction lines generalizing s with
  | nil => exact splitOn_append_cons (h s mem_cons_self) t
  | cons line lines ih =>
    obtain ⟨hs, hlines⟩ := forall_mem_cons.mp h
    have hcons : join [sep] (s :: line :: lines) = s ++ [sep] ++ join [sep] (line :: lines) := rfl
    rw [hcons, append_assoc, append_assoc, singleton_append, splitOn_append_cons hs, ih hlines]
    rfl

/-! ### Classes of code points -/

/-- The ranges of spans, each with its first code point and the first one behind it. -/
def rangesFrom : Nat → List Nat → List (Nat × Nat)
  | start, gap :: size :: spans => (start + gap, start + gap + size) :: rangesFrom (start + gap + size) spans
  | _, _ => []

theorem le_of_mem_rangesFrom {start : Nat} {r : Nat × Nat} (h : r ∈ rangesFrom start spans) : start ≤ r.1 := by
  fun_induction rangesFrom start spans with
  | case1 start gap size spans ih =>
    rcases mem_cons.mp h with rfl | h
    · exact Nat.le_add_right _ _
    · exact le_trans (by omega) (ih h)
  | case2 => cases h

/-- A code point belongs to the class exactly if it is in one of the ranges. -/
theorem inSpans_iff (start : Nat) {n : Nat} :
    inSpans spans n = true ↔ ∃ r ∈ rangesFrom start spans, r.1 ≤ start + n ∧ start + n < r.2 := by
  fun_induction rangesFrom start spans generalizing n with
  | case1 start gap size spans ih =>
    have hrest : ∀ r ∈ rangesFrom (start + gap + size) spans, start + gap + size ≤ r.1 := fun r => le_of_mem_rangesFrom
    rw [inSpans, exists_mem_cons_iff]
    by_cases hgap : n < gap
    · rw [if_pos hgap]
      refine iff_of_false Bool.false_ne_true ?_
      rintro (h | ⟨r, hr, h⟩)
      · omega
      · have := hrest r hr
        omega
    · rw [if_neg hgap]
      by_cases hsize : n < gap + size
      · rw [if_pos hsize]
        exact iff_of_true rfl (.inl ⟨by omega, by omega⟩)
      · have hn : start + n = start + gap + size + (n - (gap + size)) := by omega
        rw [if_neg hsize, ih, hn]
        exact ⟨.inr, fun h => h.resolve_left (by omega)⟩
  | case2 start spans hspans =>
    rw [inSpans]
    · simp
    · exact hspans

/-! ### Literals -/

/-- A string literal is the list of its characters: rewriting with this spares the kernel decoding it. -/
theorem ofString_ofList (l : List Char) : ofString (String.ofList l) = l.map CodePoint.scalar := by
  rw [ofString, String.toList_ofList]

end PluginKit.Text
