import PluginKit.Proofs.Json.Quoted
import PluginKit.Proofs.Text.Runs

/-!
# Reading a number

A number of JSON is a sign, a whole part, perhaps a fraction and perhaps an exponent. `Numeral` holds these
parts, and `readNumber_text` says that the reader finds exactly them again, as long as what follows cannot be
taken for a part of the number.
-/

namespace PluginKit.Json

open List
open Text (isAsciiDigit)

variable {t : Text} {e : Option (Bool × Text)} {limits : Limits}

/-! ### Runs of digits -/

def IsDigits (s : Text) : Prop := ∀ c ∈ s, isAsciiDigit c = true

/-- What follows a number does not go on with it. -/
def Stops (s : Text) : Prop :=
  ∀ c, s.head? = some c → isAsciiDigit c = false ∧ c ≠ '.' ∧ c ≠ 'e' ∧ c ≠ 'E'

theorem stops_nil : Stops [] := nofun

theorem stops_cons {c : CodePoint} {s : Text}
    (h : isAsciiDigit c = false ∧ c ≠ '.' ∧ c ≠ 'e' ∧ c ≠ 'E') : Stops (c :: s) := by
  intro d hd
  cases hd
  exact h

theorem leadingDigits_append {ds : Text} (hd : IsDigits ds) (ht : Text.Avoids isAsciiDigit t) :
    leadingDigits (ds ++ t) = ds :=
  Text.takeWhile_run hd ht

theorem wholeDigits?_append {w : Text} (hw : IsDigits w)
    (hh : w = [.scalar '0'] ∨ w ≠ [] ∧ w.head? ≠ some (.scalar '0')) (ht : Text.Avoids isAsciiDigit t) :
    wholeDigits? (w ++ t) = some w := by
  rcases hh with rfl | ⟨hne, h0⟩
  · rfl
  · cases w with
    | nil => exact absurd rfl hne
    | cons c w =>
      have hc : c ≠ '0' := fun h => h0 (congrArg some h)
      have hl := leadingDigits_append hw ht
      rw [cons_append] at hl ⊢
      rw [wholeDigits?]
      · rw [if_pos (hw c mem_cons_self), hl]
      · exact hc

/-! ### Numerals -/

/-- The parts of a number. An empty fraction is not written. -/
structure Numeral where
  negative : Bool
  whole : Text
  fraction : Text
  exponent : Option (Bool × Text)

namespace Numeral

def fractionText (fraction : Text) : Text :=
  if fraction.isEmpty then [] else .scalar '.' :: fraction

def exponentText : Option (Bool × Text) → Text
  | none => []
  | some (negative, digits) => .scalar 'e' :: .scalar (if negative then '-' else '+') :: digits

def text (n : Numeral) : Text :=
  (if n.negative then [.scalar '-'] else []) ++ (n.whole ++ (fractionText n.fraction ++ exponentText n.exponent))

/-- The parts are those of a number: digits everywhere, and no zero before another digit. -/
structure WellFormed (n : Numeral) : Prop where
  whole : IsDigits n.whole
  wholeHead : n.whole = [.scalar '0'] ∨ n.whole ≠ [] ∧ n.whole.head? ≠ some (.scalar '0')
  fraction : IsDigits n.fraction
  exponent : ∀ e ∈ n.exponent, IsDigits e.2 ∧ e.2 ≠ []

def isWhole (n : Numeral) : Bool := n.fraction.isEmpty && n.exponent.isNone

def digitsNumber (n : Numeral) : Nat :=
  (Text.digitsValue? 10 (n.whole ++ n.fraction)).getD 0

def scale : Option (Bool × Text) → Int
  | none => 0
  | some (negative, digits) =>
    let k := (Text.digitsValue? 10 digits).getD 0
    if negative then -(k : Int) else (k : Int)

def value (n : Numeral) : Value :=
  if n.isWhole then .int (if n.negative then -(n.digitsNumber : Int) else (n.digitsNumber : Int))
  else .float (Decimal.ofDecimal n.negative n.digitsNumber (scale n.exponent - n.fraction.length))

theorem stops_exponentText (ht : Stops t) :
    ∀ c, (exponentText e ++ t).head? = some c → isAsciiDigit c = false ∧ c ≠ '.' := by
  intro c hc
  cases e with
  | none => exact ⟨(ht c hc).1, (ht c hc).2.1⟩
  | some e => cases hc; decide

theorem fractionDigits_append {f : Text} (hf : IsDigits f)
    (ht : Stops t) : fractionDigits (fractionText f ++ (exponentText e ++ t)) = f := by
  have hstop := stops_exponentText (e := e) ht
  cases f with
  | nil =>
    show fractionDigits (exponentText e ++ t) = []
    unfold fractionDigits
    split
    · next rest h => exact absurd rfl (hstop _ (by rw [h]; rfl)).2
    · rfl
  | cons c f => exact leadingDigits_append hf fun c hc => (hstop c hc).1

theorem exponentPart?_append (he : ∀ x ∈ e, IsDigits x.2 ∧ x.2 ≠ []) (ht : Stops t) :
    exponentPart? (exponentText e ++ t)
      = e.map fun x => (scale (some x), (exponentText (some x)).length) := by
  cases e with
  | none =>
    show exponentPart? t = none
    cases t with
    | nil => rfl
    | cons c t =>
      obtain ⟨-, -, h1, h2⟩ := ht c rfl
      rw [exponentPart?, if_neg (by simp [h1, h2])]
  | some x =>
    obtain ⟨negative, ds⟩ := x
    obtain ⟨hd, hne⟩ := he _ rfl
    obtain ⟨k, hk⟩ := Text.digitsValue?_isSome hd
    have hl : leadingDigits (ds ++ t) = ds := leadingDigits_append hd fun c hc => (ht c hc).1
    have hemp : ds.isEmpty = false := by simpa using hne
    have hlen : 1 + ((ds ++ t).length + 1 - (ds ++ t).length) + ds.length = ds.length + 1 + 1 := by omega
    cases negative with
    | false =>
      show exponentPart? (.scalar 'e' :: .scalar '+' :: (ds ++ t)) = _
      simp only [exponentPart?, Text.takeSign, hl, hemp, hk, length_cons, hlen]
      simp [scale, hk, exponentText]
    | true =>
      show exponentPart? (.scalar 'e' :: .scalar '-' :: (ds ++ t)) = _
      simp only [exponentPart?, Text.takeSign, hl, hemp, hk, length_cons, hlen]
      simp [scale, hk, exponentText]

def body (n : Numeral) : Text := n.whole ++ (fractionText n.fraction ++ exponentText n.exponent)

theorem length_fractionText (f : Text) : (fractionText f).length = if f.isEmpty then 0 else f.length + 1 := by
  rw [fractionText]
  split <;> rfl

theorem readNumber_body {n : Numeral} (h : n.WellFormed) (ht : Stops t) :
    let afterWhole := (n.body ++ t).drop n.whole.length
    let fractionLength := if (fractionDigits afterWhole).isEmpty then 0
      else (fractionDigits afterWhole).length + 1
    wholeDigits? (n.body ++ t) = some n.whole ∧ fractionDigits afterWhole = n.fraction ∧
      exponentPart? (afterWhole.drop fractionLength)
        = n.exponent.map fun x => (scale (some x), (exponentText (some x)).length) := by
  intro afterWhole fractionLength
  have hassoc : n.body ++ t = n.whole ++ (fractionText n.fraction ++ (exponentText n.exponent ++ t)) := by
    rw [body, append_assoc, append_assoc]
  have hdrop : afterWhole = fractionText n.fraction ++ (exponentText n.exponent ++ t) := by
    show (n.body ++ t).drop n.whole.length = _
    rw [hassoc, drop_left]
  have hfrac : fractionDigits afterWhole = n.fraction := by
    rw [hdrop, fractionDigits_append h.fraction ht]
  refine ⟨?_, hfrac, ?_⟩
  · rw [hassoc]
    refine wholeDigits?_append h.whole h.wholeHead ?_
    intro c hc
    cases hf : n.fraction with
    | nil =>
      rw [hf] at hc
      exact (stops_exponentText ht c hc).1
    | cons d f =>
      rw [hf] at hc
      cases hc
      rfl
  · show exponentPart? (afterWhole.drop (if (fractionDigits afterWhole).isEmpty then 0
      else (fractionDigits afterWhole).length + 1)) = _
    rw [hfrac, ← length_fractionText, hdrop, drop_left, exponentPart?_append h.exponent ht]

theorem WellFormed.whole_cons {n : Numeral} (h : n.WellFormed) : ∃ c w, n.whole = c :: w ∧ isAsciiDigit c = true := by
  cases hw : n.whole with
  | nil =>
    rcases h.wholeHead with h0 | ⟨hne, -⟩
    · rw [hw] at h0
      cases h0
    · exact absurd hw hne
  | cons c w => exact ⟨c, w, rfl, h.whole c (by rw [hw]; exact mem_cons_self)⟩

theorem WellFormed.body_ne_dash {n : Numeral} (h : n.WellFormed) (t cs : Text) : n.body ++ t ≠ .scalar '-' :: cs := by
  obtain ⟨c, w, hw, hc⟩ := h.whole_cons
  intro he
  rw [body, hw] at he
  cases he
  exact absurd hc (by decide)

theorem length_text (n : Numeral) :
    n.text.length = (if n.negative then 1 else 0) + n.whole.length
      + (if n.fraction.isEmpty then 0 else n.fraction.length + 1)
      + ((n.exponent.map fun x => (scale (some x), (exponentText (some x)).length)).map (·.2)).getD 0 := by
  have he : (exponentText n.exponent).length
      = ((n.exponent.map fun x => (scale (some x), (exponentText (some x)).length)).map (·.2)).getD 0 := by
    cases n.exponent <;> rfl
  have hs : (if n.negative then [CodePoint.scalar '-'] else []).length = if n.negative then 1 else 0 := by
    cases n.negative <;> rfl
  rw [text, length_append, length_append, length_append, length_fractionText, he, hs,
    ← Nat.add_assoc, ← Nat.add_assoc]

theorem readMagnitude_body {n : Numeral} (h : n.WellFormed)
    (hl : n.isWhole = true → n.whole.length ≤ limits.digits) (ht : Stops t) (off : Nat) :
    readMagnitude limits ⟨off, n.text ++ t⟩ n.negative (n.body ++ t)
      = .ok (n.value, ⟨off + n.text.length, t⟩) := by
  obtain ⟨hwhole, hfrac, hexp⟩ := readNumber_body h ht
  rw [← Place.advance_append off n.text t, length_text]
  simp only [readMagnitude, hwhole, hfrac] at hexp ⊢
  rw [hexp]
  have hscale : ((n.exponent.map fun x => (scale (some x), (exponentText (some x)).length)).map (·.1)).getD 0
      = scale n.exponent := by
    cases n.exponent <;> rfl
  rw [Option.isNone_map, hscale, value]
  split
  · next hw =>
    rw [if_neg (by have := hl hw; omega), if_pos (show n.isWhole = true from hw)]
    rfl
  · next hw =>
    rw [if_neg (show ¬ n.isWhole = true from hw)]
    rfl

/-- **A written number reads back** as the value that its parts stand for. -/
theorem readNumber_text {n : Numeral} (h : n.WellFormed)
    (hl : n.isWhole = true → n.whole.length ≤ limits.digits) (ht : Stops t) (off : Nat) :
    readNumber limits ⟨off, n.text ++ t⟩ = .ok (n.value, ⟨off + n.text.length, t⟩) := by
  rw [← readMagnitude_body h hl ht off]
  cases hn : n.negative with
  | true =>
    have htext : n.text ++ t = .scalar '-' :: (n.body ++ t) := by rw [text, hn]; rfl
    rw [readNumber, htext]
    rfl
  | false =>
    have htext : n.text ++ t = n.body ++ t := by rw [text, hn]; rfl
    rw [readNumber, htext]
    split
    · next cs hcs => exact absurd hcs (h.body_ne_dash t cs)
    · rfl

end Numeral

end PluginKit.Json
