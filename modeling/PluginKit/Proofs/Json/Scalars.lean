import PluginKit.Proofs.Decimal.Written
import PluginKit.Proofs.Json.Nested

/-!
# Scalars as they are written

A text between quotes with all its characters as they are, a whole number and a number with a fraction each read back
(`quotedReads_quoteText`, `integerText_ok`, `readsTo_float`). None of them holds a control character, so that the ends
of lines in a JSON text are where the layout puts them.
-/

namespace PluginKit.Json

open List

variable {s t : Text} {c : CodePoint}

/-! ### Plain characters -/

/-- The text holds no control characters but line feeds. -/
def IsPlain (s : Text) : Prop := ∀ c ∈ s, 32 ≤ c.toNat ∨ c = '\n'

instance : DecidablePred IsPlain := fun s => inferInstanceAs (Decidable (∀ c ∈ s, 32 ≤ c.toNat ∨ c = '\n'))

theorem isPlain_nil : IsPlain [] := nofun

theorem IsPlain.append (hs : IsPlain s) (ht : IsPlain t) : IsPlain (s ++ t) :=
  forall_mem_append.mpr ⟨hs, ht⟩

theorem IsPlain.cons (hc : 32 ≤ c.toNat) (hs : IsPlain s) : IsPlain (c :: s) :=
  forall_mem_cons.mpr ⟨.inl hc, hs⟩

theorem isPlain_join {sep : Text} (hsep : IsPlain sep) {texts : List Text} (h : ∀ s ∈ texts, IsPlain s) :
    IsPlain (Text.join sep texts) := (Text.forall_mem_join_iff hsep).mpr h

theorem isPlain_digits (h : IsDigits s) : IsPlain s := by
  intro c hc
  have := (Text.isAsciiDigit_iff c).mp (h c hc)
  omega

theorem Numeral.WellFormed.isPlain {n : Numeral} (h : n.WellFormed) : IsPlain n.text := by
  have hsign : IsPlain (if n.negative then [.scalar '-'] else []) := by
    split
    · exact isPlain_nil.cons (by decide)
    · exact isPlain_nil
  have hfraction : IsPlain (fractionText n.fraction) := by
    unfold fractionText
    split
    · exact isPlain_nil
    · exact (isPlain_digits h.fraction).cons (by decide)
  have hexponent : IsPlain (exponentText n.exponent) := by
    cases he : n.exponent with
    | none => exact isPlain_nil
    | some e =>
      obtain ⟨hdigits, -⟩ := h.exponent e he
      refine IsPlain.cons (by decide) (IsPlain.cons ?_ (isPlain_digits hdigits))
      cases e.1 <;> decide
  exact hsign.append ((isPlain_digits h.whole).append (hfraction.append hexponent))

theorem foldNewlines_of_isPlain (h : IsPlain s) : Text.foldNewlines s = s := by
  have hne : ∀ c ∈ s, c ≠ '\r' := by
    rintro c hc rfl
    rcases h _ hc with h | h
    · exact absurd h (by decide)
    · exact absurd h (by decide)
  clear h
  induction s with
  | nil => rfl
  | cons c s ih =>
    obtain ⟨hc, hs⟩ := forall_mem_cons.mp hne
    rw [Text.foldNewlines, if_neg hc, ih hs]
    rintro cs rfl
    exact absurd rfl hc

/-! ### Scalars -/

theorem escapeChar_of_isSurrogate (h : c.isSurrogate = true) : escapeChar false c = [c] := by
  cases c with
  | scalar c => cases h
  | surrogate half =>
    have hn : ¬ (CodePoint.surrogate half).toNat < 32 := by
      simp only [CodePoint.toNat]
      omega
    simp [escapeChar, hn]

theorem readText_escapeChar_self (c : CodePoint) (start fuel off : Nat) (ht : t ≠ []) :
    readText start (fuel + 1) ⟨off, escapeChar false c ++ t⟩
      = consPoint c (readText start fuel ⟨off + (escapeChar false c).length, t⟩) := by
  cases hs : c.isSurrogate with
  | false => exact readText_escapeChar false hs start fuel off ht
  | true =>
    have hn : 32 ≤ c.toNat := by
      cases c with
      | scalar c => cases hs
      | surrogate half => simp only [CodePoint.toNat]; omega
    rw [escapeChar_of_isSurrogate hs]
    refine readText_plain ?_ ?_ hn
    · rintro rfl
      cases hs
    · rintro rfl
      cases hs

theorem escapeChar_ne_nil (c : CodePoint) : escapeChar false c ≠ [] := by
  have hform := escapeForm_escapeChar false c
  generalize escapeChar false c = e at hform ⊢
  cases hform with
  | short | unit | plain => exact cons_ne_nil _ _
  | pair h => rw [charEscape_of_le h]; exact cons_ne_nil _ _

theorem readText_escaped (s : Text) : ∀ (start fuel off : Nat) (t : Text), s.length < fuel →
    readText start fuel ⟨off, s.flatMap (escapeChar false) ++ .scalar '"' :: t⟩
      = .ok (s, ⟨off + (s.flatMap (escapeChar false)).length + 1, t⟩) := by
  induction s with
  | nil =>
    intro start fuel off t hf
    obtain ⟨fuel, rfl⟩ := Nat.exists_eq_add_of_lt hf
    rfl
  | cons c s ih =>
    intro start fuel off t hf
    rw [length_cons] at hf
    obtain ⟨fuel, rfl⟩ : ∃ k, fuel = k + 1 := ⟨fuel - 1, by omega⟩
    rw [flatMap_cons, append_assoc, readText_escapeChar_self c start fuel off (by simp),
      ih start fuel _ t (by omega), consPoint_ok, length_append]
    congr 3
    omega

theorem quotedReads_quoteText (s : Text) : QuotedReads (quoteText false s) s := by
  have hquoted : quoteText false s = quotedBy (escapeChar false) s := by simp [quoteText, quotedBy, Text.ofString]
  rw [hquoted]
  exact quotedReads_quotedBy escapeChar_ne_nil (readText_escaped s)

theorem isPlain_unitEscape (n : Nat) : IsPlain (unitEscape n) := by
  have hhex : IsPlain (Text.hexNat 4 n) := Text.forall_mem_hexNat (by decide) 4 n
  exact (hhex.cons (by decide)).cons (by decide)

theorem isPlain_escapeChar (ascii : Bool) (c : CodePoint) : IsPlain (escapeChar ascii c) := by
  have hform := escapeForm_escapeChar ascii c
  generalize escapeChar ascii c = e at hform ⊢
  cases hform with
  | short h _ =>
    unfold shortEscape? at h
    split at h
    all_goals first | cases h; done | exact (isPlain_nil.cons (by decide)).cons (by decide)
  | unit => exact isPlain_unitEscape _
  | pair h =>
    rw [charEscape_of_le h]
    exact (isPlain_unitEscape _).append (isPlain_unitEscape _)
  | plain _ _ hc => exact isPlain_nil.cons hc

theorem isPlain_quoteText (s : Text) : IsPlain (quoteText false s) := by
  have hbody : IsPlain (s.flatMap (escapeChar false)) := by
    intro c hc
    obtain ⟨d, -, hd⟩ := mem_flatMap.mp hc
    exact isPlain_escapeChar false d c hd
  have hquote : IsPlain "\"" := isPlain_nil.cons (by decide)
  exact (hquote.append hbody).append hquote

theorem ofString_toString_nat (n : Nat) : Text.ofString (toString n) = (Nat.toDigits 10 n).map CodePoint.scalar := by
  show List.map CodePoint.scalar (toString n).toList = _
  simp [Nat.repr]

theorem ofString_toString_int (n : Int) :
    Text.ofString (toString n)
      = (if n < 0 then [.scalar '-'] else []) ++ (Nat.toDigits 10 n.natAbs).map CodePoint.scalar := by
  cases n with
  | ofNat n =>
    rw [if_neg (by simp)]
    exact ofString_toString_nat n
  | negSucc n =>
    rw [if_pos (Int.negSucc_lt_zero n)]
    show Text.ofString ("-" ++ toString (n + 1)) = _
    rw [Int.natAbs_negSucc, ← ofString_toString_nat]
    simp [Text.ofString]

def Numeral.ofInt (n : Int) : Numeral :=
  ⟨decide (n < 0), (Nat.toDigits 10 n.natAbs).map CodePoint.scalar, [], none⟩

theorem Numeral.text_ofInt (n : Int) : (Numeral.ofInt n).text = Text.ofString (toString n) := by
  rw [ofString_toString_int, Numeral.text]
  simp [Numeral.ofInt, Numeral.fractionText, Numeral.exponentText]

theorem Numeral.wellFormed_ofInt (n : Int) : (Numeral.ofInt n).WellFormed := by
  refine ⟨fun c hc => Text.isAsciiDigit_of_mem_toDigits hc, ?_, nofun, nofun⟩
  show (Nat.toDigits 10 n.natAbs).map CodePoint.scalar = _ ∨ _
  by_cases hz : n.natAbs = 0
  · left
    rw [hz]
    rfl
  · right
    refine ⟨fun hnil => Nat.toDigits_ne_nil (map_eq_nil_iff.mp hnil), fun hc => ?_⟩
    have hc' : (Nat.toDigits 10 n.natAbs).head?.map CodePoint.scalar = some (.scalar '0') := by
      rw [← head?_map]
      exact hc
    obtain ⟨d, hd, hd'⟩ := Option.map_eq_some_iff.mp hc'
    cases hd'
    exact Text.head_toDigits_ne_zero hz hd

theorem Numeral.value_ofInt (n : Int) : (Numeral.ofInt n).value = .int n := by
  have hnumber : (Numeral.ofInt n).digitsNumber = n.natAbs := by
    simp only [digitsNumber, ofInt, append_nil, Text.digitsValue?_toDigits, Option.getD_some]
  have hwhole : (Numeral.ofInt n).isWhole = true := rfl
  rw [Numeral.value, if_pos hwhole, hnumber]
  congr 1
  by_cases hn : n < 0
  · simp only [ofInt, hn, decide_true, if_true]
    omega
  · simp only [ofInt, hn, decide_false, Bool.false_eq_true, if_false]
    omega

/-- A whole number is written as a number of JSON with at most so many digits. -/
theorem integerText_ok {n : Int} (h : integerText n = .ok s) :
    s = (Numeral.ofInt n).text ∧ (Numeral.ofInt n).whole.length ≤ Text.maxDigits := by
  have hint : Value.integer? n = some s := by
    unfold integerText Value.literal at h
    split at h
    · next hs =>
      cases h
      exact hs
    · cases h
  unfold Value.integer? at hint
  split at hint
  · next hlt =>
    refine ⟨(Option.some.inj hint).symm.trans (Numeral.text_ofInt n).symm, ?_⟩
    have hpos : 0 < Text.maxDigits := Nat.succ_pos _
    generalize Text.maxDigits = digits at hlt hpos ⊢
    rw [Numeral.ofInt, length_map]
    exact (Nat.length_toDigits_le_iff (by decide) hpos).mpr hlt
  · cases hint

theorem isPlain_words : ∀ w ∈ words, IsPlain w.1 := by
  simp only [words, IsPlain, forall_mem_cons]
  decide

theorem readsTo_float (x : Float) :
    ∃ v, (∀ limits : Limits, Text.maxDigits ≤ limits.digits → ∀ level, ReadsTo limits level (numberStyle.write x) (.ok v)) ∧
      IsPlain (numberStyle.write x) ∧ ∀ s, v ≠ .str s := by
  cases hx : (Decimal.Binary64.ofFloat x).isFinite with
  | true =>
    obtain ⟨n, hn, htext, hwhole⟩ := Decimal.write_eq_text numberStyle hx
    rw [htext]
    refine ⟨n.value, fun limits hd level => readsTo_number hn fun h => ?_, hn.isPlain, fun s => ?_⟩
    · have hle := hwhole h
      have hstyle : max 1 numberStyle.greatestPoint.toNat ≤ Text.maxDigits := by decide
      omega
    · unfold Numeral.value
      split <;> exact Value.noConfusion
  | false =>
    have hword : ∃ v, (numberStyle.write x, v) ∈ words ∧ ∀ s, v ≠ .str s := by
      unfold Decimal.Style.write
      generalize Decimal.Binary64.ofFloat x = b at hx
      match b with
      | .nan => exact ⟨.float (0.0 / 0.0), by simp [words, numberStyle], fun s => Value.noConfusion⟩
      | .infinite true =>
        exact ⟨.float (-(1.0 / 0.0)), by simp [words, numberStyle, Text.ofString], fun s => Value.noConfusion⟩
      | .infinite false => exact ⟨.float (1.0 / 0.0), by simp [words, numberStyle, Text.ofString], fun s => Value.noConfusion⟩
      | .finite _ _ _ => cases hx
    obtain ⟨v, hv, hstr⟩ := hword
    exact ⟨v, fun limits _ level => readsTo_word hv, isPlain_words _ hv, hstr⟩

end PluginKit.Json
