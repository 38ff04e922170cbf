import Mathlib.Data.List.DropRight
import PluginKit.Proofs.Json.Number

/-!
# Doubles are written as numbers

Whatever the style, a finite double is written as a number of JSON: `write_eq_text` gives its parts. The
shortest digits of a double that is not zero are not empty and do not begin with a zero, so no layout of them
has a zero before another digit, or a point without digits behind it.
-/

namespace PluginKit.Decimal

open List
open Text (isAsciiDigit)
open Json (Numeral IsDigits)

/-! ### The shortest digits -/

theorem candidate?_ne_zero {r : Rounding} {point : Int} {n k : Nat} (h : candidate? r point n = some k) : k ≠ 0 := by
  unfold candidate? at h
  simp only at h
  split_ifs at h with hboth hlt hgt heven hlow hhigh <;> cases h
  · simp only [Bool.and_eq_true, decide_eq_true_eq] at hboth
    exact hboth.1.1
  · exact Nat.succ_ne_zero _
  · simp only [Bool.and_eq_true, decide_eq_true_eq] at hboth
    exact hboth.1.1
  · exact Nat.succ_ne_zero _
  · simp only [Bool.and_eq_true, decide_eq_true_eq] at hlow
    exact hlow.1
  · exact Nat.succ_ne_zero _

theorem firstCandidate_ne_zero (r : Rounding) (point : Int) : ∀ fuel n : Nat,
    (firstCandidate r point fuel n).1 ≠ 0 := by
  intro fuel
  induction fuel with
  | zero => exact fun n => Nat.one_ne_zero
  | succ fuel ih =>
    intro n
    rw [firstCandidate]
    split
    · next k hk => exact candidate?_ne_zero hk
    · exact ih (n + 1)

/-- What is left of the digits of a number when the zeros at their end are cut. -/
theorem kept_toDigits {n : Nat} (h : n ≠ 0) :
    ∃ c s, ((Nat.toDigits 10 n).reverse.dropWhile (· == '0')).reverse = c :: s ∧ c ≠ '0' ∧
      ∀ d ∈ c :: s, d ∈ Nat.toDigits 10 n := by
  have hpre : (Nat.toDigits 10 n).rdropWhile (· == '0') <+: Nat.toDigits 10 n := rdropWhile_prefix _ _
  have hhead := Text.head_toDigits_ne_zero h
  cases hd : Nat.toDigits 10 n with
  | nil => exact absurd hd Nat.toDigits_ne_nil
  | cons c s =>
    rw [hd] at hpre hhead
    have hc : c ≠ '0' := fun he => hhead (congrArg some he)
    show ∃ c' s', (c :: s).rdropWhile (· == '0') = c' :: s' ∧ _
    cases hk : (c :: s).rdropWhile (· == '0') with
    | nil =>
      have hall := rdropWhile_eq_nil_iff.mp hk c mem_cons_self
      exact absurd (by simpa using hall) hc
    | cons c' s' =>
      rw [hk] at hpre
      obtain ⟨hcc, -⟩ := cons_prefix_cons.mp hpre
      exact ⟨c', s', rfl, hcc ▸ hc, fun d hd => hpre.subset hd⟩

/-- **The shortest digits** are digits, and the first of them is not zero. -/
theorem shortest_digits (m : Nat) (q : Int) :
    ∃ c s, (shortest m q).digits.map CodePoint.scalar = c :: s ∧ c ≠ '0' ∧ IsDigits (c :: s) := by
  simp only [shortest]
  generalize decimalPoint _ _ _ _ = point
  have hne := firstCandidate_ne_zero (Rounding.of m q) point 17 1
  generalize firstCandidate (Rounding.of m q) point 17 1 = found at hne ⊢
  obtain ⟨c, s, he, hc, hmem⟩ := kept_toDigits hne
  refine ⟨.scalar c, s.map .scalar, ?_, ?_, ?_⟩
  · exact congrArg (List.map CodePoint.scalar) he
  · intro h
    cases h
    exact hc rfl
  · intro x hx
    obtain ⟨d, hd, rfl⟩ := mem_map.mp (show x ∈ (c :: s).map CodePoint.scalar from hx)
    exact Text.isAsciiDigit_of_mem_toDigits (mem_map_of_mem (hmem d hd))

/-! ### Layouts -/

theorem isDigits_append {s t : Text} (hs : IsDigits s) (ht : IsDigits t) : IsDigits (s ++ t) := by
  intro c hc
  rcases mem_append.mp hc with h | h
  · exact hs c h
  · exact ht c h

theorem isDigits_zeros (n : Nat) : IsDigits (Text.times n '0') := by
  intro c hc
  rw [(mem_replicate.mp hc).2]
  decide

theorem isDigits_padNat (width n : Nat) : IsDigits (Text.padNat width n) := by
  rw [Text.padNat, map_append]
  refine isDigits_append ?_ fun c hc => Text.isAsciiDigit_of_mem_toDigits hc
  rw [map_replicate]
  exact isDigits_zeros _

theorem padNat_ne_nil (width n : Nat) : Text.padNat width n ≠ [] := by
  have h : Nat.toDigits 10 n ≠ [] := Nat.toDigits_ne_nil
  simp [Text.padNat, h]

def positionalParts (negative keepsPoint : Bool) (digits : Text) (point : Int) : Numeral :=
  if point ≤ 0 then ⟨negative, ['0'], Text.times (-point).toNat '0' ++ digits, none⟩
  else if digits.length ≤ point.toNat then
    ⟨negative, digits ++ Text.times (point.toNat - digits.length) '0', if keepsPoint then ['0'] else [], none⟩
  else ⟨negative, digits.take point.toNat, digits.drop point.toNat, none⟩

def exponentialParts (negative : Bool) (width : Nat) (digits : Text) (point : Int) : Numeral :=
  ⟨negative, digits.take 1, digits.drop 1, some (point - 1 < 0, Text.padNat width (point - 1).natAbs)⟩

theorem positional_eq (negative keepsPoint : Bool) {digits : Text} (hd : digits ≠ []) (point : Int) :
    positional keepsPoint digits point = (positionalParts negative keepsPoint digits point).body := by
  unfold positional positionalParts
  by_cases h0 : point ≤ 0
  · rw [if_pos h0, if_pos h0]
    simp [Numeral.body, Numeral.fractionText, Numeral.exponentText, hd, Text.ofString]
  · rw [if_neg h0, if_neg h0]
    by_cases hle : digits.length ≤ point.toNat
    · simp only [if_pos hle]
      cases keepsPoint <;>
        simp [Numeral.body, Numeral.fractionText, Numeral.exponentText, Text.ofString]
    · simp only [if_neg hle]
      simp [Numeral.body, Numeral.fractionText, Numeral.exponentText, Text.ofString, hle]

theorem exponential_eq (negative : Bool) (width : Nat) (digits : Text) (point : Int) :
    exponential width digits point = (exponentialParts negative width digits point).body := by
  unfold exponential exponentialParts
  cases hf : digits.drop 1 <;> by_cases h : point - 1 < 0 <;>
    simp [Numeral.body, Numeral.fractionText, Numeral.exponentText, Text.onlyIf, Text.ofString, h]

theorem isDigits_zero : IsDigits [.scalar '0'] := isDigits_zeros 1

theorem positionalParts_wellFormed (negative keepsPoint : Bool) {c : CodePoint} {s : Text}
    (hd : IsDigits (c :: s)) (hc : c ≠ '0') (point : Int) :
    (positionalParts negative keepsPoint (c :: s) point).WellFormed := by
  have hnone : ∀ e ∈ (none : Option (Bool × Text)), IsDigits e.2 ∧ e.2 ≠ [] := nofun
  have hhead : ∀ t : Text, (c :: t).head? ≠ some (.scalar '0') := fun t h => hc (Option.some.inj h)
  unfold positionalParts
  by_cases h0 : point ≤ 0
  · rw [if_pos h0]
    exact ⟨isDigits_zero, .inl rfl, isDigits_append (isDigits_zeros _) hd, hnone⟩
  · rw [if_neg h0]
    by_cases hle : (c :: s).length ≤ point.toNat
    · rw [if_pos hle]
      refine ⟨isDigits_append hd (isDigits_zeros _), .inr ⟨cons_ne_nil _ _, hhead _⟩, ?_, hnone⟩
      cases keepsPoint with
      | true => exact isDigits_zero
      | false => exact nofun
    · rw [if_neg hle]
      obtain ⟨k, hk⟩ : ∃ k, point.toNat = k + 1 := ⟨point.toNat - 1, by omega⟩
      refine ⟨fun x hx => hd x (mem_of_mem_take hx), .inr ?_,
        fun x hx => hd x (mem_of_mem_drop hx), hnone⟩
      show (c :: s).take point.toNat ≠ [] ∧ ((c :: s).take point.toNat).head? ≠ _
      rw [hk, take_succ_cons]
      exact ⟨cons_ne_nil _ _, hhead _⟩

theorem exponentialParts_wellFormed (negative : Bool) (width : Nat) {c : CodePoint} {s : Text}
    (hd : IsDigits (c :: s)) (hc : c ≠ '0') (point : Int) :
    (exponentialParts negative width (c :: s) point).WellFormed := by
  refine ⟨fun x hx => hd x (mem_of_mem_take hx), .inr ?_, fun x hx => hd x (mem_of_mem_drop hx), ?_⟩
  · exact ⟨cons_ne_nil _ _, fun h => hc (Option.some.inj h)⟩
  · intro e he
    cases he
    exact ⟨isDigits_padNat _ _, padNat_ne_nil _ _⟩

theorem whole_positionalParts_le {negative keepsPoint : Bool} {digits : Text} {point : Int}
    (h : (positionalParts negative keepsPoint digits point).isWhole = true) (hd : digits ≠ []) :
    (positionalParts negative keepsPoint digits point).whole.length ≤ point.toNat := by
  unfold positionalParts at h ⊢
  by_cases h0 : point ≤ 0
  · rw [if_pos h0] at h
    simp [Numeral.isWhole, hd] at h
  · rw [if_neg h0] at h ⊢
    by_cases hle : digits.length ≤ point.toNat
    · rw [if_pos hle]
      simp only [length_append, Text.times, length_replicate]
      omega
    · rw [if_neg hle] at h
      simp [Numeral.isWhole, hle] at h

theorem signed_body (n : Numeral) : ((if n.negative then "-" else "" : String) : Text) ++ n.body = n.text := by
  cases h : n.negative <;> simp [Numeral.text, Numeral.body, h, Text.ofString]

/-- **A finite double is written as a number of JSON**, and one without point and exponent has no more digits
than the style places. -/
theorem write_eq_text (style : Style) {x : Float} (hx : (Binary64.ofFloat x).isFinite = true) :
    ∃ n : Numeral, n.WellFormed ∧ style.write x = n.text ∧
      (n.isWhole = true → n.whole.length ≤ max 1 style.greatestPoint.toNat) := by
  unfold Style.write
  generalize Binary64.ofFloat x = b at hx ⊢
  match b with
  | .nan => cases hx
  | .infinite _ => cases hx
  | .finite negative 0 q =>
    refine ⟨⟨negative && style.signedZero, [.scalar '0'],
      if style.keepsPoint then [.scalar '0'] else [], none⟩, ?_, ?_, ?_⟩
    · refine ⟨isDigits_zero, .inl rfl, ?_, nofun⟩
      cases style.keepsPoint with
      | true => exact isDigits_zero
      | false => exact nofun
    · rw [← signed_body]
      cases style.keepsPoint <;> rfl
    · exact fun _ => le_max_left _ _
  | .finite negative (m + 1) q =>
    obtain ⟨c, s, hds, hc, hd⟩ := shortest_digits (m + 1) q
    simp only [hds]
    generalize (shortest (m + 1) q).point = point
    by_cases hp : (decide (style.leastPoint ≤ point) && decide (point ≤ style.greatestPoint)) = true
    · rw [if_pos hp]
      refine ⟨_, positionalParts_wellFormed negative style.keepsPoint hd hc point, ?_, fun hw => ?_⟩
      · rw [positional_eq negative style.keepsPoint (cons_ne_nil c s) point, ← signed_body]
        congr 3
        unfold positionalParts
        split_ifs <;> rfl
      · have hle := whole_positionalParts_le hw (cons_ne_nil c s)
        simp only [Bool.and_eq_true, decide_eq_true_eq] at hp
        omega
    · rw [if_neg hp]
      refine ⟨_, exponentialParts_wellFormed negative style.exponentWidth hd hc point, ?_, fun hw => ?_⟩
      · rw [exponential_eq negative, ← signed_body]
        rfl
      · simp [exponentialParts, Numeral.isWhole] at hw

end PluginKit.Decimal
