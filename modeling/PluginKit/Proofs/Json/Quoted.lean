import PluginKit.Json.Reader
import PluginKit.Json.Writer
import PluginKit.Proofs.Text.Digits

/-!
# Reading a text between quotes

What `readText` does with each form in which a character can be written: as it stands (`readText_plain`), by a
letter behind a backslash (`readText_short`), by the number of a 16-bit unit (`readText_unit`), or by two such
numbers (`readText_pair`). Two halves of a surrogate pair that follow each other are read as one character, so
a text reads back up to `joinHalves`.
-/

namespace PluginKit.Json

open List

variable {n : Nat} {c d : CodePoint}

/-! ### Places -/

theorem Place.advance_append (off : Nat) (s t : Text) :
    (⟨off, s ++ t⟩ : Place).advance s.length = ⟨off + s.length, t⟩ := by
  simp only [Place.advance, drop_left]

/-! ### Escapes -/

theorem fourHex?_hexNat (h : n < 0x10000) (t : Text) : fourHex? (Text.hexNat 4 n ++ t) = some n := by
  have hlen : (Text.hexNat 4 n).length = 4 := Text.length_hexNat (by decide) (by simpa using h)
  rw [fourHex?, take_left' hlen, if_pos hlen, Text.hexNumber?_hexNat]

theorem unitEscape_append (t : Text) :
    unitEscape n ++ t = .scalar '\\' :: .scalar 'u' :: (Text.hexNat 4 n ++ t) := rfl

theorem length_unitEscape (h : n < 0x10000) : (unitEscape n).length = 6 := by
  simp only [unitEscape, length_cons, Text.length_hexNat (show 0 < 4 by decide) (show n < 16 ^ 4 by simpa using h)]

theorem drop_hexNat (h : n < 0x10000) (t : Text) : (Text.hexNat 4 n ++ t).drop 4 = t :=
  drop_left' (Text.length_hexNat (by decide) (by simpa using h))

def pairPoint (high low : Nat) : CodePoint :=
  CodePoint.ofNat (0x10000 + (high - 0xD800) * 0x400 + (low - 0xDC00))

def consPoint (c : CodePoint) (r : Reading (Text × Place)) : Reading (Text × Place) :=
  r.map fun x => (c :: x.1, x.2)

@[simp] theorem consPoint_ok (c : CodePoint) (s : Text) (p : Place) :
    consPoint c (.ok (s, p)) = .ok (c :: s, p) := rfl

theorem bind_eq_consPoint (c : CodePoint) (r : Reading (Text × Place)) :
    (r >>= fun x => (pure (c :: x.1, x.2) : Reading (Text × Place))) = consPoint c r := by
  cases r <;> rfl

section
variable {start fuel off : Nat} {t : Text}

theorem readText_close : readText start (fuel + 1) ⟨off, .scalar '"' :: t⟩ = .ok ([], ⟨off + 1, t⟩) := rfl

theorem readText_plain (hq : c ≠ '"') (hb : c ≠ '\\') (hc : 32 ≤ c.toNat) :
    readText start (fuel + 1) ⟨off, c :: t⟩ = consPoint c (readText start fuel ⟨off + 1, t⟩) := by
  rw [readText]
  split
  · next h => cases h
  · next h => cases h; exact absurd rfl hq
  · next h => cases h; exact absurd rfl hb
  · next h =>
    cases h
    rw [if_neg (by omega), ← bind_eq_consPoint]
    rfl

theorem readText_short (h : shortEscape? c = some d) :
    readText start (fuel + 1) ⟨off, .scalar '\\' :: c :: t⟩
      = consPoint d (readText start fuel ⟨off + 2, t⟩) := by
  have hu : c ≠ 'u' := by
    rintro rfl
    cases h
  rw [readText]
  simp only [h]
  rw [← bind_eq_consPoint]
  rfl

/-- An escape with a number is a character of its own, unless it is the high half of a surrogate pair and the
low half follows. -/
theorem readText_unit (hn : n < 0x10000) (ht : t ≠ [])
    (hlow : 0xD800 ≤ n → n ≤ 0xDBFF → lowHalf t = .none) :
    readText start (fuel + 1) ⟨off, unitEscape n ++ t⟩
      = consPoint (.ofNat n) (readText start fuel ⟨off + 6, t⟩) := by
  have hd := drop_hexNat hn t
  have hne : t.isEmpty = false := by simpa using ht
  have hl : (if (0xD800 ≤ n && n ≤ 0xDBFF) = true then lowHalf t else .none) = LowHalf.none := by
    split
    · next h =>
      simp only [Bool.and_eq_true, decide_eq_true_eq] at h
      exact hlow h.1 h.2
    · rfl
  rw [unitEscape_append, readText]
  simp only [hd, hne, fourHex?_hexNat hn t, hl, Bool.false_eq_true, if_false]
  rw [← bind_eq_consPoint]
  have ha : (⟨off, .scalar '\\' :: .scalar 'u' :: (Text.hexNat 4 n ++ t)⟩ : Place).advance 6
      = ⟨off + 6, t⟩ := by
    simp only [Place.advance, drop_succ_cons, hd]
  rw [ha]

/-- Two escapes with the halves of a surrogate pair are one character. -/
theorem readText_pair {high low : Nat} (hh : 0xD800 ≤ high ∧ high ≤ 0xDBFF)
    (hl : 0xDC00 ≤ low ∧ low ≤ 0xDFFF) (ht : t ≠ []) :
    readText start (fuel + 1) ⟨off, unitEscape high ++ (unitEscape low ++ t)⟩
      = consPoint (pairPoint high low) (readText start fuel ⟨off + 12, t⟩) := by
  have hhn : high < 0x10000 := by omega
  have hln : low < 0x10000 := by omega
  have hd := drop_hexNat hhn (unitEscape low ++ t)
  have hd' := drop_hexNat hln t
  have hne : (unitEscape low ++ t).isEmpty = false := rfl
  have hne' : t.isEmpty = false := by simpa using ht
  have hhigh : (decide (0xD800 ≤ high) && decide (high ≤ 0xDBFF)) = true := by simpa using hh
  have hlow : lowHalf (unitEscape low ++ t) = .half low := by
    have hr : (decide (0xDC00 ≤ low) && decide (low ≤ 0xDFFF)) = true := by simpa using hl
    rw [unitEscape_append, lowHalf]
    simp only [hd', hne', fourHex?_hexNat hln t, hr, Bool.false_eq_true, if_false, if_true]
  rw [unitEscape_append, readText]
  simp only [hd, hne, fourHex?_hexNat hhn, hhigh, hlow, Bool.false_eq_true, if_false, if_true]
  rw [← bind_eq_consPoint]
  have ha : (⟨off, .scalar '\\' :: .scalar 'u' :: (Text.hexNat 4 high ++ (unitEscape low ++ t))⟩
      : Place).advance 12 = ⟨off + 12, t⟩ := by
    simp only [Place.advance, drop_succ_cons]
    rw [show (10 : Nat) = 4 + 6 from rfl, ← List.drop_drop, hd]
    rw [drop_left' (length_unitEscape hln)]
  rw [ha]
  rfl

end

/-! ### Halves of surrogate pairs -/

def isHigh : CodePoint → Bool
  | .surrogate half => half.val < 0x400
  | _ => false

def isLow : CodePoint → Bool
  | .surrogate half => 0x400 ≤ half.val
  | _ => false

/-- The text with every high half that a low half follows joined with it to one character. Scripts do not tell
the two apart. -/
def joinHalves : Text → Text
  | [] => []
  | [c] => [c]
  | c :: d :: s =>
    if isHigh c && isLow d then pairPoint c.toNat d.toNat :: joinHalves s else c :: joinHalves (d :: s)

theorem joinHalves_eq_nil {s : Text} : joinHalves s = [] ↔ s = [] := by
  cases s with
  | nil => exact Iff.rfl
  | cons c s =>
    cases s with
    | nil => simp [joinHalves]
    | cons d s => simp only [joinHalves]; split <;> simp

theorem isHigh_iff (c : CodePoint) : isHigh c = true ↔ 0xD800 ≤ c.toNat ∧ c.toNat ≤ 0xDBFF := by
  cases c with
  | scalar c =>
    have v := c.valid
    simp only [UInt32.isValidChar, Nat.isValidChar] at v
    simp only [isHigh, CodePoint.toNat, Char.toNat, Bool.false_eq_true, false_iff]
    omega
  | surrogate half =>
    simp only [isHigh, CodePoint.toNat, decide_eq_true_eq]
    omega

theorem isLow_iff (c : CodePoint) : isLow c = true ↔ 0xDC00 ≤ c.toNat ∧ c.toNat ≤ 0xDFFF := by
  cases c with
  | scalar c =>
    have v := c.valid
    simp only [UInt32.isValidChar, Nat.isValidChar] at v
    simp only [isLow, CodePoint.toNat, Char.toNat, Bool.false_eq_true, false_iff]
    omega
  | surrogate half =>
    have := half.isLt
    simp only [isLow, CodePoint.toNat, decide_eq_true_eq]
    omega

/-! ### Written texts -/

theorem lowHalf_plain (t : Text) (h : c ≠ '\\') : lowHalf (c :: t) = .none := by
  rw [lowHalf]
  intro rest he
  cases he
  exact h rfl

theorem lowHalf_short (t : Text) (h : d ≠ 'u') : lowHalf (.scalar '\\' :: d :: t) = .none := by
  rw [lowHalf]
  intro rest he
  cases he
  exact h rfl

theorem lowHalf_unit (t : Text) (hn : n < 0x10000) (hl : ¬ (0xDC00 ≤ n ∧ n ≤ 0xDFFF)) :
    lowHalf (unitEscape n ++ t) = .none := by
  have hr : (decide (0xDC00 ≤ n) && decide (n ≤ 0xDFFF)) = false := by
    rw [← Bool.not_eq_true, Bool.and_eq_true, decide_eq_true_eq, decide_eq_true_eq]
    exact hl
  rw [unitEscape_append, lowHalf]
  simp only [drop_hexNat hn t, fourHex?_hexNat hn t, hr, Bool.false_eq_true, if_false, ite_self]

/-- How single code points are written between quotes so that a text reads back. -/
structure Escaping (esc : CodePoint → Text) : Prop where
  half : ∀ c, c.isSurrogate = true → esc c = unitEscape c.toNat
  reads : ∀ c, c.isSurrogate = false → ∀ start fuel off t, t ≠ [] →
    readText start (fuel + 1) ⟨off, esc c ++ t⟩
      = consPoint c (readText start fuel ⟨off + (esc c).length, t⟩)
  notLow : ∀ c, c.isSurrogate = false → ∀ t, lowHalf (esc c ++ t) = .none

theorem toNat_lt_of_isSurrogate (h : c.isSurrogate = true) : c.toNat < 0x10000 := by
  cases c with
  | scalar c => cases h
  | surrogate half =>
    have := half.isLt
    simp only [CodePoint.toNat]
    omega

theorem isSurrogate_of_isHigh (h : isHigh c = true) : c.isSurrogate = true := by
  cases c with
  | scalar c => cases h
  | surrogate half => rfl

theorem isSurrogate_of_isLow (h : isLow c = true) : c.isSurrogate = true := by
  cases c with
  | scalar c => cases h
  | surrogate half => rfl

namespace Escaping

variable {esc : CodePoint → Text}

theorem lowHalf_eq_none (he : Escaping esc) (h : isLow c = false) (t : Text) : lowHalf (esc c ++ t) = .none := by
  cases hs : c.isSurrogate with
  | false => exact he.notLow c hs t
  | true =>
    rw [he.half c hs]
    refine lowHalf_unit t (toNat_lt_of_isSurrogate hs) fun hl => ?_
    rw [(isLow_iff c).mpr hl] at h
    cases h

/-- A code point reads back, unless it is a high half that a low half follows. -/
theorem readText_point (he : Escaping esc) {t : Text} (ht : t ≠ [])
    (hlow : isHigh c = true → lowHalf t = .none) (start fuel off : Nat) :
    readText start (fuel + 1) ⟨off, esc c ++ t⟩
      = consPoint c (readText start fuel ⟨off + (esc c).length, t⟩) := by
  cases hs : c.isSurrogate with
  | false => exact he.reads c hs start fuel off t ht
  | true =>
    have hn := toNat_lt_of_isSurrogate hs
    rw [he.half c hs, length_unitEscape hn,
      readText_unit hn ht (fun h1 h2 => hlow ((isHigh_iff c).mpr ⟨h1, h2⟩)), CodePoint.ofNat_toNat]

/-- **A written text reads back**, up to the quote behind it and with its halves joined. -/
theorem readText_flatMap (he : Escaping esc) (s : Text) : ∀ (start fuel off : Nat) (t : Text),
    s.length < fuel →
    readText start fuel ⟨off, s.flatMap esc ++ .scalar '"' :: t⟩
      = .ok (joinHalves s, ⟨off + (s.flatMap esc).length + 1, t⟩) := by
  induction s using joinHalves.induct with
  | case1 =>
    intro start fuel off t hf
    obtain ⟨fuel, rfl⟩ := Nat.exists_eq_add_of_lt hf
    rfl
  | case2 c =>
    intro start fuel off t hf
    obtain ⟨fuel, rfl⟩ : ∃ k, fuel = k + 1 + 1 :=
      ⟨fuel - 2, by simp only [length_singleton] at hf; omega⟩
    rw [flatMap_cons, flatMap_nil, append_nil,
      he.readText_point (cons_ne_nil _ _) (fun _ => lowHalf_plain _ (by decide)), readText_close]
    rfl
  | case3 c d s hp ih =>
    intro start fuel off t hf
    simp only [Bool.and_eq_true] at hp
    have hc := isSurrogate_of_isHigh hp.1
    have hd := isSurrogate_of_isLow hp.2
    simp only [length_cons] at hf
    obtain ⟨fuel, rfl⟩ : ∃ k, fuel = k + 1 := ⟨fuel - 1, by omega⟩
    rw [flatMap_cons, flatMap_cons, append_assoc, append_assoc, he.half c hc,
      he.half d hd, readText_pair ((isHigh_iff c).mp hp.1) ((isLow_iff d).mp hp.2) (by simp),
      ih start fuel (off + 12) t (by omega), consPoint_ok, joinHalves,
      if_pos (by rw [hp.1, hp.2]; rfl)]
    simp only [length_append, length_unitEscape (toNat_lt_of_isSurrogate hc),
      length_unitEscape (toNat_lt_of_isSurrogate hd)]
    congr 3
    omega
  | case4 c d s hp ih =>
    intro start fuel off t hf
    simp only [length_cons] at hf
    obtain ⟨fuel, rfl⟩ : ∃ k, fuel = k + 1 := ⟨fuel - 1, by omega⟩
    have hlow : isHigh c = true →
        lowHalf ((d :: s).flatMap esc ++ .scalar '"' :: t) = .none := by
      intro hh
      rw [flatMap_cons, append_assoc]
      refine he.lowHalf_eq_none ?_ _
      simpa [hh] using hp
    rw [flatMap_cons, append_assoc, he.readText_point (by simp) hlow,
      ih start fuel _ t (by simp only [length_cons]; omega), consPoint_ok, joinHalves,
      if_neg hp, length_append]
    congr 3
    omega

end Escaping

/-! ### The escapes of JSON -/

theorem pairPoint_toNat (h : 0x10000 ≤ c.toNat) (hs : c.isSurrogate = false) :
    let n := c.toNat - 0x10000
    (0xD800 ≤ 0xD800 + n / 0x400 ∧ 0xD800 + n / 0x400 ≤ 0xDBFF) ∧
      (0xDC00 ≤ 0xDC00 + n % 0x400 ∧ 0xDC00 + n % 0x400 ≤ 0xDFFF) ∧
      pairPoint (0xD800 + n / 0x400) (0xDC00 + n % 0x400) = c := by
  intro n
  have hlt : c.toNat < 0x110000 := by
    cases c with
    | scalar c =>
      have v := c.valid
      simp only [UInt32.isValidChar, Nat.isValidChar] at v
      simp only [CodePoint.toNat, Char.toNat]
      omega
    | surrogate half => cases hs
  have hdm := Nat.div_add_mod n 0x400
  have hm := Nat.mod_lt n (show 0x400 > 0 by decide)
  refine ⟨⟨by omega, by omega⟩, ⟨by omega, by omega⟩, ?_⟩
  have he : 0x10000 + (0xD800 + n / 0x400 - 0xD800) * 0x400 + (0xDC00 + n % 0x400 - 0xDC00) = c.toNat := by
    omega
  rw [pairPoint, he, CodePoint.ofNat_toNat]

theorem charEscape_of_le (h : 0x10000 ≤ c.toNat) :
    charEscape c = unitEscape (0xD800 + (c.toNat - 0x10000) / 0x400) ++
      unitEscape (0xDC00 + (c.toNat - 0x10000) % 0x400) := by
  rw [charEscape]
  exact if_neg (by omega)

inductive EscapeForm (c : CodePoint) : Text → Prop where
  | short {d : CodePoint} (h : shortEscape? d = some c) (hu : d ≠ 'u') : EscapeForm c [.scalar '\\', d]
  | unit (h : c.toNat < 0x10000) : EscapeForm c (unitEscape c.toNat)
  | pair (h : 0x10000 ≤ c.toNat) : EscapeForm c (charEscape c)
  | plain (hq : c ≠ '"') (hb : c ≠ '\\') (hc : 32 ≤ c.toNat) : EscapeForm c [c]

theorem escapeForm_charEscape (c : CodePoint) : EscapeForm c (charEscape c) := by
  by_cases hn : c.toNat < 0x10000
  · rw [show charEscape c = unitEscape c.toNat from if_pos hn]
    exact .unit hn
  · exact .pair (Nat.le_of_not_lt hn)

theorem escapeForm_escapeChar (ascii : Bool) (c : CodePoint) : EscapeForm c (escapeChar ascii c) := by
  have hshort : ∀ {b d : CodePoint}, c = b → shortEscape? d = some b → d ≠ 'u' →
      EscapeForm c [.scalar '\\', d] := by
    rintro b d rfl h hu
    exact .short h hu
  rw [escapeChar]
  split
  · next h => exact hshort h rfl (by decide)
  next hq =>
  split
  · next h => exact hshort h rfl (by decide)
  next hb =>
  split
  · next h => exact hshort h rfl (by decide)
  split
  · next h => exact hshort h rfl (by decide)
  split
  · next h => exact hshort h rfl (by decide)
  split
  · next h => exact hshort h rfl (by decide)
  split
  · next h => exact hshort h rfl (by decide)
  split
  · exact .unit (by omega)
  · split
    · exact escapeForm_charEscape c
    · exact .plain hq hb (by omega)

theorem not_half_of_not_isSurrogate (hs : c.isSurrogate = false) : ¬ (0xD800 ≤ c.toNat ∧ c.toNat ≤ 0xDFFF) := by
  cases c with
  | scalar c =>
    have v := c.valid
    simp only [UInt32.isValidChar, Nat.isValidChar] at v
    simp only [CodePoint.toNat, Char.toNat]
    omega
  | surrogate half => cases hs

theorem readText_escapeChar (ascii : Bool) (hs : c.isSurrogate = false)
    (start fuel off : Nat) {t : Text} (ht : t ≠ []) :
    readText start (fuel + 1) ⟨off, escapeChar ascii c ++ t⟩
      = consPoint c (readText start fuel ⟨off + (escapeChar ascii c).length, t⟩) := by
  have hn := not_half_of_not_isSurrogate hs
  have hform := escapeForm_escapeChar ascii c
  generalize escapeChar ascii c = e at hform ⊢
  cases hform with
  | short h _ => exact readText_short h
  | unit h => rw [readText_unit h ht (fun h1 h2 => by omega), length_unitEscape h, CodePoint.ofNat_toNat]
  | pair h =>
    obtain ⟨hh, hl, hp⟩ := pairPoint_toNat h hs
    rw [charEscape_of_le h, append_assoc, readText_pair hh hl ht, hp, length_append,
      length_unitEscape (by omega), length_unitEscape (by omega)]
  | plain hq hb hc => exact readText_plain hq hb hc

theorem lowHalf_escapeChar (ascii : Bool) (hs : c.isSurrogate = false) (t : Text) :
    lowHalf (escapeChar ascii c ++ t) = .none := by
  have hn := not_half_of_not_isSurrogate hs
  have hform := escapeForm_escapeChar ascii c
  generalize escapeChar ascii c = e at hform ⊢
  cases hform with
  | short _ hu => exact lowHalf_short t hu
  | unit h => exact lowHalf_unit t h (by omega)
  | pair h =>
    obtain ⟨hh, -, -⟩ := pairPoint_toNat h hs
    rw [charEscape_of_le h, append_assoc]
    exact lowHalf_unit _ (by omega) (by omega)
  | plain _ hb _ => exact lowHalf_plain t hb

end PluginKit.Json
