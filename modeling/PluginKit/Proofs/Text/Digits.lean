import Mathlib.Tactic
import PluginKit.Text.Number

/-!
# Digits of a number

What is written digit by digit reads back (`foldlM_toDigits`). A number in hexadecimal notation reads back as
itself (`hexNumber?_hexNat`), whatever zeros stand before it, and so does one in decimal notation
(`digitsValue?_toDigits`), which is a run of ASCII digits that begins with a zero only if the number is zero
(`head_toDigits_ne_zero`).
-/

namespace PluginKit.Text

open List

variable {b d n : Nat} {p : CodePoint → Prop} {c : CodePoint} {s : Text}

/-! ### Digits in a base -/

theorem foldlM_toDigits (hb : 1 < b) {push : Nat → CodePoint → Option Nat}
    (hpush : ∀ d < b, ∀ n, push n (.scalar d.digitChar) = some (b * n + d)) (n : Nat) : ∀ k : Nat,
    ((Nat.toDigits b n).map CodePoint.scalar).foldlM push k
      = some (b ^ (Nat.toDigits b n).length * k + n) := by
  induction n using Nat.strong_induction_on with
  | _ n ih =>
    intro k
    rw [Nat.toDigits_eq_if hb]
    split
    · next h => simp [hpush n h]
    · next h =>
      have hlt : n / b < n := Nat.div_lt_self (by omega) hb
      have hmod : n % b < b := Nat.mod_lt _ (by omega)
      rw [map_append, foldlM_append, ih _ hlt]
      simp only [map_cons, map_nil, foldlM_cons, foldlM_nil, hpush _ hmod,
        Option.bind_eq_bind, Option.bind_some, Option.pure_def, Option.some.injEq, length_append,
        length_singleton, pow_succ]
      have := Nat.div_add_mod n b
      rw [Nat.mul_add, ← Nat.mul_assoc, Nat.mul_comm b (b ^ _), Nat.add_assoc, this]

/-- What holds of the digits of a base holds of the characters of every number. -/
theorem forall_mem_toDigits (hb : 1 < b) (h : ∀ d < b, p (.scalar d.digitChar))
    (n : Nat) : ∀ c ∈ (Nat.toDigits b n).map CodePoint.scalar, p c := by
  induction n using Nat.strong_induction_on with
  | _ n ih =>
    rw [Nat.toDigits_eq_if hb]
    split
    · next hlt => exact forall_mem_singleton.mpr (h n hlt)
    · rw [map_append]
      exact forall_mem_append.mpr ⟨ih _ (Nat.div_lt_self (by omega) hb),
        forall_mem_singleton.mpr (h _ (Nat.mod_lt _ (by omega)))⟩

/-! ### Hexadecimal notation -/

/-- What holds of the hexadecimal digits holds of the characters of every number. -/
theorem forall_mem_hexNat (h : ∀ d < 16, p (.scalar d.digitChar)) (width n : Nat) : ∀ c ∈ hexNat width n, p c := by
  rw [hexNat, map_append, map_replicate]
  refine forall_mem_append.mpr ⟨fun c hc => ?_, forall_mem_toDigits (by decide) h n⟩
  cases eq_of_mem_replicate hc
  exact h 0 (by decide)

theorem hexValue?_digitChar (h : d < 16) : hexValue? (.scalar d.digitChar) = some d := by
  interval_cases d <;> rfl

def pushHex (n : Nat) (c : CodePoint) : Option Nat :=
  (hexValue? c).map (16 * n + ·)

theorem hexNumber?_eq (s : Text) : hexNumber? s = s.foldlM pushHex 0 := rfl

theorem pushHex_digitChar (h : d < 16) (n : Nat) : pushHex n (.scalar d.digitChar) = some (16 * n + d) := by
  rw [pushHex, hexValue?_digitChar h]
  rfl

theorem foldlM_pushHex_zeros (m : Nat) : ((List.replicate m '0').map CodePoint.scalar).foldlM pushHex 0 = some 0 := by
  induction m with
  | zero => rfl
  | succ m ih =>
    rw [replicate_succ, map_cons, foldlM_cons]
    exact ih

/-- **Hexadecimal notation reads back**, with any number of zeros before it. -/
theorem hexNumber?_hexNat (width n : Nat) : hexNumber? (hexNat width n) = some n := by
  rw [hexNumber?_eq, hexNat, map_append, foldlM_append, foldlM_pushHex_zeros]
  exact (foldlM_toDigits (by decide) (fun d hd => pushHex_digitChar hd) n 0).trans (by
    rw [Nat.mul_zero, Nat.zero_add])

theorem length_hexNat {width : Nat} (hw : 0 < width) (h : n < 16 ^ width) : (hexNat width n).length = width := by
  have hle : (Nat.toDigits 16 n).length ≤ width :=
    (Nat.length_toDigits_le_iff (by decide) hw).mpr h
  simp only [hexNat, length_map, length_append, length_replicate]
  omega

/-! ### Decimal notation -/

theorem isAsciiDigit_iff (c : CodePoint) : isAsciiDigit c = true ↔ 48 ≤ c.toNat ∧ c.toNat ≤ 57 := by
  simp only [isAsciiDigit, Bool.and_eq_true, decide_eq_true_eq]
  exact Iff.rfl

theorem isAsciiDigit_scalar {c : Char} (h : c.isDigit = true) : isAsciiDigit (.scalar c) = true := by
  simp only [Char.isDigit, Bool.and_eq_true, decide_eq_true_eq] at h
  exact (isAsciiDigit_iff _).mpr ⟨UInt32.le_iff_toNat_le.mp h.1, UInt32.le_iff_toNat_le.mp h.2⟩

theorem isAsciiDigit_of_mem_toDigits (h : c ∈ (Nat.toDigits 10 n).map CodePoint.scalar) : isAsciiDigit c = true := by
  obtain ⟨d, hd, rfl⟩ := mem_map.mp h
  exact isAsciiDigit_scalar (Nat.isDigit_of_mem_toDigits (by decide) (by decide) hd)

theorem digitChar_ne_zero (h0 : d ≠ 0) (h : d < 10) : d.digitChar ≠ '0' := by
  interval_cases d <;> first | exact absurd rfl h0 | decide

/-- **Only zero begins with a zero.** -/
theorem head_toDigits_ne_zero (h : n ≠ 0) : (Nat.toDigits 10 n).head? ≠ some '0' := by
  induction n using Nat.strong_induction_on with
  | _ n ih =>
    rw [Nat.toDigits_eq_if (by decide)]
    split
    · next hlt =>
      intro he
      exact digitChar_ne_zero h hlt (Option.some.inj he)
    · next hge =>
      have hne : Nat.toDigits 10 (n / 10) ≠ [] := Nat.toDigits_ne_nil
      rw [head?_append_of_ne_nil _ hne]
      exact ih _ (Nat.div_lt_self (by omega) (by decide)) (by omega)

theorem digitValue?_isSome (h : isAsciiDigit c = true) : ∃ d, digitValue? 10 c = some d := by
  obtain ⟨h0, h9⟩ := (isAsciiDigit_iff c).mp h
  have hle : (CodePoint.scalar '0' ≤ c) ∧ (c ≤ CodePoint.scalar '9') := ⟨h0, h9⟩
  refine ⟨c.toNat - 48, ?_⟩
  have hv : hexValue? c = some (c.toNat - 48) := by
    rw [hexValue?, if_pos (by simpa using hle)]
    rfl
  rw [digitValue?, hv, Option.filter_some, if_pos (by simp; omega)]

theorem foldlM_digits_isSome (h : ∀ c ∈ s, isAsciiDigit c = true) : ∀ k : Nat,
    ∃ n, s.foldlM (fun n c => (digitValue? 10 c).map (10 * n + ·)) k = some n := by
  induction s with
  | nil => exact fun k => ⟨k, rfl⟩
  | cons c s ih =>
    intro k
    obtain ⟨d, hd⟩ := digitValue?_isSome (h c mem_cons_self)
    obtain ⟨n, hn⟩ := ih (fun x hx => h x (mem_cons_of_mem c hx)) (10 * k + d)
    exact ⟨n, by rw [foldlM_cons, hd]; exact hn⟩

/-- **Decimal notation reads back.** -/
theorem digitsValue?_toDigits (n : Nat) : digitsValue? 10 ((Nat.toDigits 10 n).map CodePoint.scalar) = some n := by
  have hpush : ∀ d < 10, ∀ k, (digitValue? 10 (.scalar d.digitChar)).map (10 * k + ·) = some (10 * k + d) := by
    intro d hd k
    rw [digitValue?, hexValue?_digitChar (by omega), Option.filter_some, if_pos (by simpa using hd)]
    rfl
  have h := @foldlM_toDigits 10 (by decide) (fun n c => (digitValue? 10 c).map (10 * n + ·)) hpush n 0
  rw [Nat.mul_zero, Nat.zero_add] at h
  exact h

theorem ofString_numbered (stem : String) (n : Nat) :
    ofString (toString stem ++ toString n) = ofString stem ++ (Nat.toDigits 10 n).map CodePoint.scalar := by
  have hstem : toString stem = stem := rfl
  simp [ofString, hstem]

theorem ofString_numbered_injective {stem : String} {m : Nat}
    (h : ofString (toString stem ++ toString m) = ofString (toString stem ++ toString n)) : m = n := by
  rw [ofString_numbered, ofString_numbered, append_right_inj] at h
  have hvalue := digitsValue?_toDigits m
  rw [h, digitsValue?_toDigits] at hvalue
  exact (Option.some.inj hvalue).symm

theorem digitsValue?_lt : (digitsValue? 10 s).getD 0 < 10 ^ s.length := by
  have hfold : ∀ k n : Nat, s.foldlM (fun n c => (digitValue? 10 c).map (10 * n + ·)) k = some n →
      n < 10 ^ s.length * (k + 1) := by
    induction s with
    | nil =>
      intro k n h
      cases h
      simp
    | cons c s ih =>
      intro k n h
      rw [foldlM_cons] at h
      obtain ⟨m, hm, hn⟩ := Option.bind_eq_some_iff.mp h
      obtain ⟨d, hd, rfl⟩ := Option.map_eq_some_iff.mp hm
      have hlt : d < 10 := by simpa using (Option.filter_eq_some_iff.mp hd).2
      calc n < 10 ^ s.length * (10 * k + d + 1) := ih _ n hn
        _ ≤ 10 ^ s.length * (10 * (k + 1)) := Nat.mul_le_mul_left _ (by omega)
        _ = 10 ^ (c :: s).length * (k + 1) := by rw [length_cons, pow_succ, Nat.mul_assoc]
  cases h : digitsValue? 10 s with
  | none => exact Nat.pow_pos (by decide)
  | some n => simpa using hfold 0 n h

theorem digitsValue?_isSome (h : ∀ c ∈ s, isAsciiDigit c = true) : ∃ n, digitsValue? 10 s = some n :=
  foldlM_digits_isSome h 0

end PluginKit.Text
