import Mathlib.Data.List.Sort
import PluginKit.Proofs.Files.Directory

/-!
# Proper trees

In a proper tree every place is listed once, stands in a directory, and no part of it leads back. What is below a place
is then exactly what is found there (`Proper.mem_below_iff`), each once (`Proper.nodup_below`), in the order of the parts
that lead to it (`pairwise_below`); and nothing is below a place where no directory is (`Proper.find?_eq_none`).
-/

namespace PluginKit

open List

/-! ### The order of places -/

theorem CodePoint.toNat_inj {c d : CodePoint} (h : c.toNat = d.toNat) : c = d := by
  rw [← ofNat_toNat c, h, ofNat_toNat]

theorem Text.lt_trans {a b c : Text} (hab : a < b) (hbc : b < c) : a < c := by
  have : Trans (fun x y : CodePoint => x < y) (fun x y => x < y) fun x y => x < y :=
    ⟨fun {x y z} (hxy : x.toNat < y.toNat) (hyz : y.toNat < z.toNat) => Nat.lt_trans hxy hyz⟩
  exact List.lt_trans hab hbc

theorem Text.lt_irrefl (a : Text) : ¬ a < a := by
  have : Std.Irrefl fun x y : CodePoint => x < y := ⟨fun x (h : x.toNat < x.toNat) => Nat.lt_irrefl _ h⟩
  exact List.lt_irrefl a

theorem Text.lt_trichotomy (a b : Text) : a < b ∨ a = b ∨ b < a := by
  induction a generalizing b with
  | nil =>
    cases b with
    | nil => exact .inr (.inl rfl)
    | cons d b => exact .inl (nil_lt_cons d b)
  | cons c a ih =>
    cases b with
    | nil => exact .inr (.inr (nil_lt_cons c a))
    | cons d b =>
      rw [cons_lt_cons_iff, cons_lt_cons_iff]
      rcases Nat.lt_trichotomy c.toNat d.toNat with h | h | h
      · exact .inl (.inl h)
      · rw [CodePoint.toNat_inj h]
        rcases ih b with h | rfl | h
        · exact .inl (.inr ⟨rfl, h⟩)
        · exact .inr (.inl rfl)
        · exact .inr (.inr (.inr ⟨rfl, h⟩))
      · exact .inr (.inr (.inl h))

namespace Files

/-- The order of part lists is that of their parts, one after another. -/
theorem partsLe_iff {a b : List Text} : partsLe a b = true ↔ a < b ∨ a = b := by
  induction a generalizing b with
  | nil =>
    cases b with
    | nil => exact iff_of_true rfl (.inr rfl)
    | cons d b => exact iff_of_true rfl (.inl (nil_lt_cons d b))
  | cons c a ih =>
    cases b with
    | nil => exact iff_of_false Bool.false_ne_true fun h => h.elim (fun h => by cases h) fun h => by cases h
    | cons d b =>
      rw [partsLe, cons_lt_cons_iff, cons_eq_cons]
      by_cases hcd : c = d
      · subst hcd
        rw [if_pos rfl, ih]
        exact ⟨fun h => h.imp (fun h => .inr ⟨rfl, h⟩) fun h => ⟨rfl, h⟩,
          fun h => h.imp (fun h => h.elim (fun h => absurd h (Text.lt_irrefl c)) (·.2)) (·.2)⟩
      · rw [if_neg hcd, decide_eq_true_eq]
        exact ⟨fun h => .inl (.inl h), fun h => h.elim (fun h => h.elim id fun h => absurd h.1 hcd) fun h => absurd h.1 hcd⟩

theorem parts_lt_trans {a b c : List Text} (hab : a < b) (hbc : b < c) : a < c := by
  have : Trans (fun x y : Text => x < y) (fun x y => x < y) fun x y => x < y := ⟨Text.lt_trans⟩
  exact List.lt_trans hab hbc

theorem parts_lt_irrefl (a : List Text) : ¬ a < a := by
  have : Std.Irrefl fun x y : Text => x < y := ⟨Text.lt_irrefl⟩
  exact List.lt_irrefl a

theorem partsLe_trans {a b c : List Text} (hab : partsLe a b = true) (hbc : partsLe b c = true) : partsLe a c = true := by
  rw [partsLe_iff] at hab hbc ⊢
  rcases hab with hab | rfl
  · rcases hbc with hbc | rfl
    · exact .inl (parts_lt_trans hab hbc)
    · exact .inl hab
  · exact hbc

theorem partsLe_total (a b : List Text) : (partsLe a b || partsLe b a) = true := by
  induction a generalizing b with
  | nil => rfl
  | cons c a ih =>
    cases b with
    | nil => rfl
    | cons d b =>
      rw [Bool.or_eq_true, partsLe_iff, partsLe_iff, cons_lt_cons_iff, cons_lt_cons_iff]
      rcases Text.lt_trichotomy c d with h | rfl | h
      · exact .inl (.inl (.inl h))
      · rcases Bool.or_eq_true _ _ ▸ ih b with h | h
        · rcases partsLe_iff.mp h with h | rfl
          · exact .inl (.inl (.inr ⟨rfl, h⟩))
          · exact .inl (.inr rfl)
        · rcases partsLe_iff.mp h with h | rfl
          · exact .inr (.inl (.inr ⟨rfl, h⟩))
          · exact .inr (.inr rfl)
      · exact .inr (.inl (.inl h))

/-- Lists whose parts grow strictly are determined by what is in them. -/
theorem eq_of_pairwise_lt {α : Type} {l l' : List (List Text × α)} (h : (l.map Prod.fst).Pairwise (· < ·))
    (h' : (l'.map Prod.fst).Pairwise (· < ·)) (hmem : ∀ x, x ∈ l ↔ x ∈ l') : l = l' := by
  rw [pairwise_map] at h h'
  have hne {a b : List Text × α} (hlt : a.1 < b.1) : a ≠ b := by
    rintro rfl
    exact parts_lt_irrefl a.1 hlt
  have hperm : l.Perm l' := (perm_ext_iff_of_nodup (h.imp hne) (h'.imp hne)).mpr hmem
  exact List.Perm.eq_of_pairwise (fun a b _ _ hab hba => absurd (parts_lt_trans hab hba) (parts_lt_irrefl a.1)) h h' hperm

namespace Tree

variable {t : Tree} {place parts q : List Text} {e : Entry}

def Precedes (a b : List Text × Entry) : Prop := partsLe a.1 b.1 = true

instance : DecidableRel Precedes := fun a b => inferInstanceAs (Decidable (partsLe a.1 b.1 = true))

instance : IsTrans (List Text × Entry) Precedes := ⟨fun _ _ _ => partsLe_trans⟩

instance : Std.Total Precedes := ⟨fun a b => Bool.or_eq_true _ _ ▸ partsLe_total a.1 b.1⟩

theorem sortIn_eq (x : List Text × Entry) (entries : List (List Text × Entry)) :
    sortIn x entries = entries.orderedInsert Precedes x := by
  induction entries with
  | nil => rfl
  | cons y entries ih =>
    rw [sortIn, List.orderedInsert, ih]
    rfl

theorem below_eq (t : Tree) (place : List Text) :
    t.below place = ((t.entries.filter fun e => place.isPrefixOf e.1 && place.length < e.1.length).map fun e =>
      (e.1.drop place.length, e.2)).insertionSort Precedes := by
  rw [below, List.insertionSort]
  exact congrArg (fun insert => List.foldr insert [] _) (funext fun x => funext fun entries => sortIn_eq x entries)

/-- What is below a place comes in the order of the parts that lead to it. -/
theorem pairwise_below (t : Tree) (place : List Text) : (t.below place).Pairwise Precedes := by
  rw [below_eq]
  exact pairwise_insertionSort Precedes _

theorem filter_putIn {test : List Text × Entry → Bool} (htest : ∀ e, test (q, e) = false) (e : Entry)
    (entries : List (List Text × Entry)) : (putIn q e entries).filter test = entries.filter test := by
  induction entries with
  | nil => simp [putIn, htest]
  | cons x entries ih =>
    obtain ⟨p, old⟩ := x
    rw [putIn]
    by_cases h : p = q
    · subst h
      simp [htest]
    · rw [if_neg (by simpa using h), filter_cons, filter_cons, ih]

theorem below_put (h : ¬ place <+: q) (t : Tree) (e : Entry) : (t.put q e).below place = t.below place := by
  have htest (e : Entry) : (place.isPrefixOf (q, e).1 && decide (place.length < (q, e).1.length)) = false := by
    rw [Bool.and_eq_false_iff, ← Bool.not_eq_true, isPrefixOf_iff_prefix]
    exact .inl h
  have hfilter : ((putIn q e t.entries).filter fun e => place.isPrefixOf e.1 && place.length < e.1.length) =
      t.entries.filter fun e => place.isPrefixOf e.1 && place.length < e.1.length := filter_putIn htest e t.entries
  unfold below put
  rw [hfilter]

/-! ### What is in a tree -/

/-- Every place is listed once, stands in a directory, and does not lead back. -/
structure Proper (t : Tree) : Prop where
  nodup : (t.entries.map Prod.fst).Nodup
  root : [] ∉ t.entries.map Prod.fst
  inside : ∀ {place part e}, t.find? (place ++ [part]) = some e → t.find? place = some .directory ∧ part ≠ Path.back

theorem find?_of_mem (hnodup : (t.entries.map Prod.fst).Nodup) (hq : q ≠ []) (h : (q, e) ∈ t.entries) :
    t.find? q = some e := by
  obtain ⟨entries⟩ := t
  rw [find?, if_neg (by simpa using hq)]
  dsimp only at hnodup h ⊢
  induction entries with
  | nil => cases h
  | cons x entries ih =>
    obtain ⟨p, x⟩ := x
    rw [map_cons, nodup_cons] at hnodup
    rw [find?_cons]
    rcases mem_cons.mp h with h | h
    · cases h
      rw [if_pos rfl]
    · rw [if_neg, ih hnodup.2 h]
      rintro rfl
      exact hnodup.1 (mem_map.mpr ⟨_, h, rfl⟩)

theorem mem_of_find? (hq : q ≠ []) (h : t.find? q = some e) : (q, e) ∈ t.entries := by
  rw [find?, if_neg (by simpa using hq), Option.map_eq_some_iff] at h
  obtain ⟨x, hx, rfl⟩ := h
  have hplace : x.1 = q := beq_iff_eq.mp (find?_some (p := fun x : List Text × Entry => x.1 == q) hx)
  rw [← hplace]
  exact mem_of_find?_eq_some hx

namespace Proper

theorem mem_entries_iff (h : t.Proper) : (q, e) ∈ t.entries ↔ q ≠ [] ∧ t.find? q = some e := by
  constructor
  · intro hmem
    have hq : q ≠ [] := by
      rintro rfl
      exact h.root (mem_map_of_mem hmem)
    exact ⟨hq, find?_of_mem h.nodup hq hmem⟩
  · rintro ⟨hq, hfind⟩
    exact mem_of_find? hq hfind

/-- **What is below a place** is what is found there. -/
theorem mem_below_iff (h : t.Proper) : (parts, e) ∈ t.below place ↔ parts ≠ [] ∧ t.find? (place ++ parts) = some e := by
  rw [below_eq, mem_insertionSort, mem_map]
  constructor
  · rintro ⟨⟨q, x⟩, hmem, hx⟩
    obtain ⟨hentry, hbelow⟩ := mem_filter.mp hmem
    rw [Bool.and_eq_true, isPrefixOf_iff_prefix, decide_eq_true_eq] at hbelow
    obtain ⟨⟨rest, rfl⟩, hlength⟩ := hbelow
    rw [drop_left] at hx
    cases hx
    refine ⟨?_, (h.mem_entries_iff.mp hentry).2⟩
    rintro rfl
    rw [append_nil] at hlength
    exact Nat.lt_irrefl _ hlength
  · rintro ⟨hparts, hfind⟩
    refine ⟨(place ++ parts, e), mem_filter.mpr ⟨mem_of_find? (by simp [hparts]) hfind, ?_⟩, ?_⟩
    · have hlength := length_pos_of_ne_nil hparts
      rw [Bool.and_eq_true, isPrefixOf_iff_prefix, decide_eq_true_eq, length_append]
      exact ⟨prefix_append place parts, by omega⟩
    · rw [drop_left]

theorem nodup_below (h : t.Proper) (place : List Text) : ((t.below place).map Prod.fst).Nodup := by
  rw [below_eq, ((perm_insertionSort _ _).map Prod.fst).nodup_iff, map_map]
  have hfilter : ((t.entries.filter fun e => place.isPrefixOf e.1 && place.length < e.1.length).map Prod.fst).Nodup :=
    h.nodup.sublist (filter_sublist.map Prod.fst)
  -- Two places below the same one differ in what is left of them.
  rw [List.Nodup, pairwise_map] at hfilter ⊢
  refine hfilter.imp_of_mem ?_
  intro a b ha hb hne hdrop
  have hbelow {x : List Text × Entry}
      (hx : x ∈ t.entries.filter fun e => place.isPrefixOf e.1 && place.length < e.1.length) : place <+: x.1 :=
    isPrefixOf_iff_prefix.mp (Bool.and_eq_true _ _ ▸ (mem_filter.mp hx).2).1
  obtain ⟨r, hr⟩ := hbelow ha
  obtain ⟨r', hr'⟩ := hbelow hb
  simp only [Function.comp_apply, ← hr, ← hr', drop_left] at hdrop
  exact hne (by rw [← hr, ← hr', hdrop])

theorem pairwise_lt_below (h : t.Proper) (place : List Text) : ((t.below place).map Prod.fst).Pairwise (· < ·) := by
  have hnodup := h.nodup_below place
  rw [List.Nodup, pairwise_map] at hnodup
  rw [pairwise_map]
  refine (t.pairwise_below place).imp₂ ?_ hnodup
  intro a b hle hne
  exact (partsLe_iff.mp hle).resolve_right hne

/-- What is below two places is listed in the same way exactly if the same is found there. -/
theorem below_eq_iff {t' : Tree} {place' : List Text} (h : t.Proper) (h' : t'.Proper) :
    t.below place = t'.below place' ↔ ∀ parts, parts ≠ [] → t.find? (place ++ parts) = t'.find? (place' ++ parts) := by
  constructor
  · intro hbelow parts hparts
    refine Option.ext fun e => ?_
    have hmem : (parts, e) ∈ t.below place ↔ (parts, e) ∈ t'.below place' := by rw [hbelow]
    rw [h.mem_below_iff, h'.mem_below_iff] at hmem
    exact ⟨fun hfind => (hmem.mp ⟨hparts, hfind⟩).2, fun hfind => (hmem.mpr ⟨hparts, hfind⟩).2⟩
  · intro hfind
    refine eq_of_pairwise_lt (h.pairwise_lt_below place) (h'.pairwise_lt_below place') ?_
    rintro ⟨parts, e⟩
    rw [h.mem_below_iff, h'.mem_below_iff]
    exact and_congr_right fun hparts => by rw [hfind parts hparts]

theorem find?_eq_none (h : t.Proper) (hplace : t.find? place ≠ some .directory) (hparts : parts ≠ []) :
    t.find? (place ++ parts) = none := by
  induction parts using List.reverseRecOn with
  | nil => exact absurd rfl hparts
  | append_singleton parts part ih =>
    rw [Option.eq_none_iff_forall_not_mem]
    intro e hfind
    rw [Option.mem_def, ← append_assoc] at hfind
    have hdirectory := (h.inside hfind).1
    by_cases hnil : parts = []
    · rw [hnil, append_nil] at hdirectory
      exact hplace hdirectory
    · rw [ih hnil] at hdirectory
      cases hdirectory

theorem find?_of_append (h : t.Proper) (hparts : parts ≠ []) (hfind : t.find? (place ++ parts) = some e) :
    t.find? place = some .directory := by
  by_contra hplace
  rw [h.find?_eq_none hplace hparts] at hfind
  cases hfind

theorem back_not_mem (h : t.Proper) (hfind : t.find? (place ++ parts) = some e) : Path.back ∉ parts := by
  intro hmem
  obtain ⟨before, after, rfl⟩ := append_of_mem hmem
  have hback : ∃ e, t.find? (place ++ before ++ [Path.back]) = some e := by
    have hsplit : place ++ (before ++ Path.back :: after) = place ++ before ++ [Path.back] ++ after := by simp
    rw [hsplit] at hfind
    by_cases hafter : after = []
    · rw [hafter, append_nil] at hfind
      exact ⟨e, hfind⟩
    · exact ⟨_, h.find?_of_append hafter hfind⟩
  obtain ⟨e, he⟩ := hback
  exact (h.inside he).2 rfl

end Proper

theorem proper_of_entries (hnodup : (t.entries.map Prod.fst).Nodup)
    (hentries : ∀ x ∈ t.entries, x.1 ≠ [] ∧ (t.find? x.1.dropLast).map Entry.isDirectory = some true ∧
      x.1.getLast? ≠ some Path.back) : t.Proper where
  nodup := hnodup
  root := by
    intro hmem
    obtain ⟨x, hx, hnil⟩ := mem_map.mp hmem
    exact (hentries x hx).1 hnil
  inside := by
    intro place part e hfind
    obtain ⟨-, hdirectory, hback⟩ := hentries _ (mem_of_find? (by simp) hfind)
    rw [dropLast_concat] at hdirectory
    rw [getLast?_concat] at hback
    refine ⟨?_, fun h => hback (congrArg some h)⟩
    cases hplace : t.find? place with
    | none =>
      rw [hplace] at hdirectory
      cases hdirectory
    | some e =>
      cases e with
      | directory => rfl
      | file c =>
        rw [hplace] at hdirectory
        cases hdirectory

end Tree

end Files

end PluginKit
