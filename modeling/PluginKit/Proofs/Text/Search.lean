import PluginKit.Proofs.Text.Runs
import PluginKit.Text.Scan

/-!
# Searching in a text

A scanner that reads only where a mark stands finds nothing in a text without the mark, and goes on behind it as
if that text were not there (`findAll_quiet`, `findFirst?_quiet`). For this the mark must not begin in the text
and end behind it; a mark whose first character comes only once cannot, if what is behind begins with it too.
-/

namespace PluginKit.Text

open List

variable {mark u w s t v literal pad run : Text} {d : CodePoint} {p : CodePoint → Bool}

/-! ### Marks -/

/-- What does not occur in a text is not at the front of any part of it. -/
theorem not_prefix_of_occursIn (h : occursIn mark (u ++ w) = false) : ¬ mark <+: w := by
  induction u with
  | nil =>
    cases w with
    | nil =>
      intro hp
      rw [prefix_nil.mp hp] at h
      cases h
    | cons c w =>
      intro hp
      simp only [nil_append, occursIn, Bool.or_eq_false_iff] at h
      rw [ isPrefixOf_iff_prefix.mpr hp] at h
      cases h.1
  | cons c u ih =>
    simp only [cons_append, occursIn, Bool.or_eq_false_iff] at h
    exact ih h.2

theorem occursIn_of_not_mem {c : CodePoint} (hc : c ∈ mark) (hs : c ∉ s) : occursIn mark s = false := by
  induction s with
  | nil => exact isEmpty_eq_false_iff.mpr (ne_nil_of_mem hc)
  | cons d s ih =>
    rw [occursIn, ih fun h => hs (mem_cons_of_mem d h), Bool.or_false, ← Bool.not_eq_true,
      isPrefixOf_iff_prefix]
    exact fun hp => hs (hp.subset hc)

theorem occursIn_append_cons {c : CodePoint} (hc : c ∉ mark) (hs : occursIn mark s = false)
    (ht : occursIn mark t = false) : occursIn mark (s ++ c :: t) = false := by
  have hsep : ∀ {w : Text}, ¬ mark <+: w → ¬ mark <+: w ++ c :: t := by
    intro w hw hp
    rcases prefix_or_prefix_of_prefix hp (prefix_append w (c :: t)) with hshort | ⟨p, rfl⟩
    · exact hw hshort
    · rw [prefix_append_right_inj] at hp
      cases p with
      | nil => exact hw (by rw [append_nil])
      | cons d p =>
        rw [(cons_prefix_cons.mp hp).1] at hc
        exact hc (mem_append_right w mem_cons_self)
  induction s with
  | nil =>
    rw [nil_append, occursIn, ht, Bool.or_false, ← Bool.not_eq_true, isPrefixOf_iff_prefix]
    exact hsep (not_prefix_of_occursIn (u := []) hs)
  | cons d s ih =>
    rw [cons_append, occursIn, ih (Bool.or_eq_false_iff.mp hs).2, Bool.or_false, ← Bool.not_eq_true,
      isPrefixOf_iff_prefix, ← cons_append]
    exact hsep (not_prefix_of_occursIn (u := []) hs)

/-- What begins a text: nothing, or a character. -/
def BeginsWith (c : CodePoint) (s : Text) : Prop := s = [] ∨ s.head? = some c

/-- A mark whose first character comes only once does not begin in one text and end in the next. -/
theorem not_prefix_append {c : CodePoint} {cs : Text} (hc : c ∉ cs) (hw : w ≠ []) (hv : BeginsWith c v)
    (h : ¬ (c :: cs) <+: w) : ¬ (c :: cs) <+: w ++ v := by
  intro hp
  rcases prefix_or_prefix_of_prefix hp (prefix_append w v) with hshort | ⟨p, hlong⟩
  · exact h hshort
  · rw [← hlong, prefix_append_right_inj] at hp
    obtain ⟨x, w, rfl⟩ := exists_cons_of_ne_nil hw
    rw [cons_append, List.cons.injEq] at hlong
    obtain ⟨rfl, rfl⟩ := hlong
    cases p with
    | nil => exact h (by rw [append_nil])
    | cons d p =>
      obtain ⟨v', rfl⟩ := hp
      rcases hv with hv | hv
      · cases hv
      · cases hv
        exact hc (by simp)

/-- A text is cut in one way only at the first place of a character. -/
theorem cut_unique {c : CodePoint} {s' t' : Text} (hs : c ∉ s) (hs' : c ∉ s')
    (h : s ++ c :: t = s' ++ c :: t') : s = s' ∧ t = t' := by
  have hcut {x y : Text} (hx : c ∉ x) : (x ++ c :: y).takeWhile (· != c) = x := by
    refine takeWhile_run (fun d hd => ?_) (avoids_cons (by simp))
    rw [bne_iff_ne]
    rintro rfl
    exact hx hd
  obtain rfl : s = s' := by rw [← hcut hs, h, hcut hs']
  exact ⟨rfl, (List.cons.inj (append_cancel_left h)).2⟩

/-! ### Quiet texts -/

/-- The scanner reads only where the mark stands. -/
def NeedsMark {α : Type} (mark : Text) (scan : Scanner α) : Prop :=
  ∀ s, ¬ mark <+: s → scan s = none

section
variable {α : Type} {scan : Scanner α} {c : CodePoint} {cs : Text}

theorem scan_quiet (hscan : NeedsMark (c :: cs) scan) (hc : c ∉ cs) (hw : w ≠ [])
    (hu : occursIn (c :: cs) (u ++ w) = false) (hv : BeginsWith c v) : scan (w ++ v) = none :=
  hscan _ (not_prefix_append hc hw hv (not_prefix_of_occursIn hu))

theorem occursIn_tail (h : occursIn mark (d :: u) = false) : occursIn mark u = false := by
  simp only [occursIn, Bool.or_eq_false_iff] at h
  exact h.2

theorem occursIn_append_right (h : occursIn mark (u ++ w) = false) : occursIn mark w = false := by
  induction u with
  | nil => exact h
  | cons d u ih => exact ih (occursIn_tail h)

/-! ### All that is found -/

theorem findAllFrom_eq_drop (scan : Scanner α) : ∀ (skip : Nat) (s : Text),
    findAllFrom scan skip s = findAll scan (s.drop skip) := by
  intro skip s
  induction s generalizing skip with
  | nil => cases skip <;> rfl
  | cons d s ih =>
    cases skip with
    | zero => rfl
    | succ skip => exact ih skip

theorem findAll_of_none (h : scan (d :: s) = none) : findAll scan (d :: s) = findAll scan s := by
  rw [findAll, findAllFrom, h]
  rfl

theorem findAll_of_some {a : α} (hu : u ≠ []) (h : scan (u ++ v) = some (a, v)) :
    findAll scan (u ++ v) = a :: findAll scan v := by
  obtain ⟨d, u, rfl⟩ := exists_cons_of_ne_nil hu
  rw [cons_append] at h ⊢
  rw [findAll, findAllFrom, h]
  have hskip : (u ++ v).length - v.length = u.length := by
    rw [length_append, Nat.add_sub_cancel]
  simp only [hskip, findAllFrom_eq_drop, drop_left]

/-- A text at no place of which the scanner reads can be passed over. -/
theorem findAll_skip (h : ∀ w, w ≠ [] → w <:+ u → scan (w ++ v) = none) : findAll scan (u ++ v) = findAll scan v := by
  induction u with
  | nil => rfl
  | cons d u ih =>
    have hnone : scan (d :: (u ++ v)) = none := h (d :: u) (cons_ne_nil d u) suffix_rfl
    rw [cons_append, findAll_of_none hnone]
    exact ih fun w hw hs => h w hw (hs.trans (suffix_cons d u))

theorem scan_suffix_quiet (hscan : NeedsMark (c :: cs) scan) (hc : c ∉ cs)
    (hu : occursIn (c :: cs) u = false) (hv : BeginsWith c v) :
    ∀ w, w ≠ [] → w <:+ u → scan (w ++ v) = none := by
  rintro w hw ⟨x, rfl⟩
  exact scan_quiet hscan hc hw hu hv

/-- **Nothing is found in a text without the mark.** -/
theorem findAll_quiet (hscan : NeedsMark (c :: cs) scan) (hc : c ∉ cs)
    (hu : occursIn (c :: cs) u = false) (hv : BeginsWith c v) : findAll scan (u ++ v) = findAll scan v :=
  findAll_skip (scan_suffix_quiet hscan hc hu hv)

theorem exists_of_mem_findAllFrom {skip : Nat} {a : α} (h : a ∈ findAllFrom scan skip s) :
    ∃ u v, scan u = some (a, v) := by
  induction s generalizing skip with
  | nil => cases skip <;> cases h
  | cons d s ih =>
    cases skip with
    | succ skip => exact ih h
    | zero =>
      rw [findAllFrom] at h
      split at h
      · exact ih h
      · next hread =>
        rcases mem_cons.mp h with rfl | h
        · exact ⟨_, _, hread⟩
        · exact ih h

/-- What is found was read at some place. -/
theorem exists_of_mem_findAll {a : α} (h : a ∈ findAll scan s) : ∃ u v, scan u = some (a, v) :=
  exists_of_mem_findAllFrom h

/-! ### The first that is found -/

theorem findFirst?_of_some {rest : Text} {a : α} (h : scan (d :: s) = some (a, rest)) :
    findFirst? scan (d :: s) = some a := by
  rw [findFirst?, h]

theorem findFirst?_of_none (h : scan (d :: s) = none) : findFirst? scan (d :: s) = findFirst? scan s := by
  rw [findFirst?, h]

theorem findFirst?_skip (h : ∀ w, w ≠ [] → w <:+ u → scan (w ++ v) = none) :
    findFirst? scan (u ++ v) = findFirst? scan v := by
  induction u with
  | nil => rfl
  | cons d u ih =>
    have hnone : scan (d :: (u ++ v)) = none := h (d :: u) (cons_ne_nil d u) suffix_rfl
    rw [cons_append, findFirst?_of_none hnone]
    exact ih fun w hw hs => h w hw (hs.trans (suffix_cons d u))

theorem exists_of_findFirst? {a : α} (h : findFirst? scan s = some a) : ∃ u v, u <:+ s ∧ scan u = some (a, v) := by
  induction s with
  | nil => cases h
  | cons d s ih =>
    rw [findFirst?] at h
    split at h
    · next hread =>
      cases h
      exact ⟨_, _, suffix_rfl, hread⟩
    · obtain ⟨u, v, hu, hread⟩ := ih h
      exact ⟨u, v, hu.trans (suffix_cons d s), hread⟩

theorem findFirst?_quiet (hscan : NeedsMark (c :: cs) scan) (hc : c ∉ cs)
    (hu : occursIn (c :: cs) u = false) (hv : BeginsWith c v) :
    findFirst? scan (u ++ v) = findFirst? scan v :=
  findFirst?_skip (scan_suffix_quiet hscan hc hu hv)

end

/-! ### Steps of a scanner -/

def AllBlank (s : Text) : Prop := ∀ c ∈ s, isBlank c = true

theorem after_append (literal s : Text) : after literal (literal ++ s) = some s := by
  rw [after, if_pos <| isPrefixOf_iff_prefix.mpr (prefix_append literal s), drop_left]

theorem after_eq_none (h : ¬ literal <+: s) : after literal s = none := by
  rw [after, if_neg fun hp => h <| isPrefixOf_iff_prefix.mp hp]

theorem eq_append_of_after (h : after literal s = some t) : s = literal ++ t := by
  rw [after] at h
  split at h
  · next hp =>
    obtain ⟨v, rfl⟩ := isPrefixOf_iff_prefix.mp hp
    rw [drop_left, Option.some.injEq] at h
    rw [h]
  · cases h

theorem skipBlanks_append (hp : AllBlank pad) (hs : Avoids isBlank s) : skipBlanks (pad ++ s) = s :=
  dropWhile_run hp hs

theorem afterBlanks_append (hp : AllBlank pad) {c : CodePoint} (hc : isBlank c = false)
    (s : Text) : afterBlanks [c] (pad ++ c :: s) = some s := by
  rw [afterBlanks, skipBlanks_append hp (avoids_cons hc)]
  exact after_append [c] s

theorem afterBlanks_of_ne (hp : AllBlank pad) {c : CodePoint} (hd : isBlank d = false)
    (hne : c ≠ d) (s : Text) : afterBlanks [c] (pad ++ d :: s) = none := by
  rw [afterBlanks, skipBlanks_append hp (avoids_cons hd)]
  exact after_eq_none fun h => hne (cons_prefix_cons.mp h).1

theorem eq_append_of_afterBlanks (h : afterBlanks literal s = some t) :
    ∃ pad, AllBlank pad ∧ s = pad ++ (literal ++ t) := by
  refine ⟨s.takeWhile isBlank, fun c hc => mem_takeWhile_imp hc, ?_⟩
  rw [← eq_append_of_after h, skipBlanks, takeWhile_append_dropWhile]

theorem takeChar_cons {c : CodePoint} (h : p c = true) (s : Text) :
    takeChar p (c :: s) = some (c, s) := if_pos h

theorem eq_cons_of_takeChar {c : CodePoint} (h : takeChar p s = some (c, t)) : s = c :: t ∧ p c = true := by
  cases s with
  | nil => cases h
  | cons d s =>
    rw [takeChar] at h
    split at h
    · next hp =>
      cases h
      exact ⟨rfl, hp⟩
    · cases h

theorem takeRun_append (hrun : ∀ c ∈ run, p c = true) (hne : run ≠ [])
    (hs : Avoids p s) : takeRun p (run ++ s) = some (run, s) := by
  have hemp : run.isEmpty = false := by simpa using hne
  simp only [takeRun, takeWhile_run hrun hs, hemp, Bool.false_eq_true, if_false, drop_left]

theorem eq_append_of_takeRun (h : takeRun p s = some (run, t)) : s = run ++ t := by
  simp only [takeRun] at h
  split at h
  · cases h
  · rw [Option.some.injEq, Prod.mk.injEq] at h
    obtain ⟨rfl, rfl⟩ := h
    exact (prefix_iff_eq_append.mp <| takeWhile_prefix p).symm

theorem run_of_takeRun (h : takeRun p s = some (run, t)) : run ≠ [] ∧ ∀ c ∈ run, p c = true := by
  simp only [takeRun] at h
  split at h
  · cases h
  · next hne =>
    cases h
    exact ⟨by simpa using hne, fun c hc => mem_takeWhile_imp hc⟩

end PluginKit.Text
