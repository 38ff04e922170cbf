import PluginKit.Proofs.Json.Denoted

/-!
# What is shown of a JSON value

Every value of a JSON text has a notation, and the notation can be written: texts stand between quotes there, and what
is not printable is escaped (`Denoted.literal`). So everything that is shown of such a value can be written, unless it is
a text that cannot be written itself, which is shown without quotes (`Denoted.displays_iff`).
-/

namespace PluginKit

open List
open Value (named str)

variable {s digits : Text} {room : Nat} {v : Value}

/-! ### Quoted texts -/

namespace Text

theorem isSurrogate_of_isPrintable {c : CodePoint} (h : isPrintable c = true) : c.isSurrogate = false := by
  cases c with
  | scalar c => rfl
  | surrogate half =>
    have hmem : (0xD7FC, 0xF900) ∈ rangesFrom 0 unprintableSpans := by decide +kernel
    have hhalf := half.isLt
    have hspans : inSpans unprintableSpans (0xD800 + half.val) = true :=
      (inSpans_iff 0).mpr ⟨_, hmem, by omega, by omega⟩
    have hnat : (CodePoint.surrogate half).toNat = 0xD800 + half.val := rfl
    rw [isPrintable, hnat, hspans, if_neg (by omega)] at h
    cases h

theorem encodable_codeEscape (n : Nat) : Encodable (codeEscape n) := by
  unfold codeEscape
  split_ifs
  all_goals exact (encodable_ofString _).append (encodable_map_scalar _)

theorem encodable_quotedChar {quote : CodePoint} (hquote : quote.isSurrogate = false) (c : CodePoint) :
    Encodable (quotedChar quote c) := by
  unfold quotedChar
  split_ifs with hescaped _ _ _ hprintable
  · refine .cons rfl (.cons ?_ encodable_nil)
    rw [Bool.or_eq_true, decide_eq_true_eq, decide_eq_true_eq] at hescaped
    rcases hescaped with rfl | rfl
    · exact hquote
    · rfl
  · simp
  · simp
  · simp
  · exact .cons (isSurrogate_of_isPrintable hprintable) encodable_nil
  · exact encodable_codeEscape _

/-- **A quoted text can be written**, whatever the text holds. -/
theorem encodable_quoted (s : Text) : Encodable (quoted s) := by
  have hquote : (quoteFor s).isSurrogate = false := by
    unfold quoteFor
    split
    · rfl
    · rfl
  refine .cons hquote (.append (fun c hc => ?_) (.cons hquote encodable_nil))
  obtain ⟨d, -, hc⟩ := mem_flatMap.mp hc
  exact encodable_quotedChar hquote d c hc

end Text

/-! ### Numbers -/

theorem encodable_take (h : Encodable s) (n : Nat) : Encodable (s.take n) :=
  fun c hc => h c (mem_of_mem_take hc)

theorem encodable_drop (h : Encodable s) (n : Nat) : Encodable (s.drop n) :=
  fun c hc => h c (mem_of_mem_drop hc)

theorem Decimal.encodable_positional (h : Encodable digits) (keepsPoint : Bool) (point : Int) :
    Encodable (positional keepsPoint digits point) := by
  unfold positional
  split
  · exact ((encodable_ofString _).append (encodable_times rfl _)).append h
  · dsimp only
    split
    · refine (h.append (encodable_times rfl _)).append ?_
      split <;> simp
    · exact ((encodable_take h _).append (encodable_ofString _)).append (encodable_drop h _)

theorem Decimal.encodable_exponential (h : Encodable digits) (width : Nat) (point : Int) :
    Encodable (exponential width digits point) := by
  unfold exponential
  refine (((encodable_take h _).append ?_).append ?_).append (encodable_map_scalar _)
  · unfold Text.onlyIf
    split
    · exact (encodable_ofString _).append (encodable_drop h _)
    · exact encodable_nil
  · split <;> simp

theorem Decimal.encodable_write {style : Style} (hnan : Encodable style.nan) (hinfinity : Encodable style.infinity)
    (x : Float) : Encodable (style.write x) := by
  have hsign (b : Bool) : Encodable (if b then "-" else "" : String) := encodable_ofString _
  unfold Style.write
  split
  · exact hnan
  · exact (hsign _).append hinfinity
  · refine (hsign _).append ?_
    exact encodable_ofString _
  · refine (hsign _).append ?_
    split
    · exact encodable_positional (encodable_map_scalar _) _ _
    · exact encodable_exponential (encodable_map_scalar _) _ _

theorem encodable_integer? {n : Int} (h : Value.integer? n = some s) : Encodable s := by
  rw [Value.integer?, Option.ite_none_right_eq_some] at h
  rw [← Option.some.inj h.2]
  exact encodable_ofString _

/-! ### Values -/

namespace Json

def HasLiteral (v : Value) : Prop := ∃ s, Value.literalIn [] v = some s ∧ Encodable s

theorem hasLiteral_list {items : List Value} (h : ∀ v ∈ items, HasLiteral v) :
    ∃ s, Value.literalsIn [] items = some s ∧ Encodable s := by
  induction items with
  | nil => exact ⟨[], rfl, encodable_nil⟩
  | cons v items ih =>
    obtain ⟨⟨s, hs, hv⟩, hitems⟩ := forall_mem_cons.mp h
    cases items with
    | nil => exact ⟨s, hs, hv⟩
    | cons w items =>
      obtain ⟨t, ht, hrest⟩ := ih hitems
      refine ⟨s ++ ", " ++ t, ?_, (hv.append (encodable_ofString _)).append hrest⟩
      simp [Value.literalsIn, hs, ht]

theorem hasLiteral_dict {fields : List (Text × Value)} (h : ∀ f ∈ fields, HasLiteral f.2) :
    ∃ s, Value.entryLiteralsIn [] (named fields) = some s ∧ Encodable s := by
  induction fields with
  | nil => exact ⟨[], rfl, encodable_nil⟩
  | cons f fields ih =>
    obtain ⟨⟨s, hs, hv⟩, hfields⟩ := forall_mem_cons.mp h
    have hentry : Encodable (Text.quoted f.1 ++ ": " ++ s) :=
      ((Text.encodable_quoted f.1).append (encodable_ofString _)).append hv
    cases fields with
    | nil =>
      refine ⟨_, ?_, hentry⟩
      rw [named, map_cons, map_nil, Value.entryLiteralsIn, hs]
      rfl
    | cons g fields =>
      obtain ⟨t, ht, hrest⟩ := ih hfields
      refine ⟨Text.quoted f.1 ++ ": " ++ s ++ ", " ++ t, ?_, (hentry.append (encodable_ofString _)).append hrest⟩
      have hquoted : Value.literalIn [] (str f.1) = some (Text.quoted f.1) := rfl
      rw [named, map_cons] at ht
      simp [named, Value.entryLiteralsIn, hquoted, hs, ht]

/-- **A value of a JSON text** has a notation that can be written. -/
theorem Denoted.literal (h : Denoted room v) : HasLiteral v := by
  induction h with
  | @scalar room v h hliteral =>
    cases v with
    | list | tuple | dict | loop | again | bytes | date | datetime | set => cases h
    | null => exact ⟨_, rfl, encodable_ofString _⟩
    | bool b =>
      cases b with
      | true => exact ⟨_, rfl, encodable_ofString _⟩
      | false => exact ⟨_, rfl, encodable_ofString _⟩
    | int n =>
      obtain ⟨s, hs⟩ := Option.isSome_iff_exists.mp hliteral
      rw [Value.literal?, Value.literalIn] at hs
      refine ⟨s, ?_, encodable_integer? hs⟩
      rw [Value.literalIn, hs]
    | float x => exact ⟨_, rfl, Decimal.encodable_write (encodable_ofString _) (encodable_ofString _) x⟩
    | str s => exact ⟨_, rfl, Text.encodable_quoted s⟩
  | list _ ih =>
    obtain ⟨s, hs, hitems⟩ := hasLiteral_list ih
    refine ⟨"[" ++ s ++ "]", ?_, ((encodable_ofString _).append hitems).append (encodable_ofString _)⟩
    rw [Value.literalIn, hs]
    rfl
  | dict _ _ ih =>
    obtain ⟨s, hs, hfields⟩ := hasLiteral_dict ih
    refine ⟨"\x7b" ++ s ++ "\x7d", ?_, ((encodable_ofString _).append hfields).append (encodable_ofString _)⟩
    rw [Value.literalIn, hs]
    rfl

def Displays (v : Value) : Prop := ∃ s, v.display = .ok s ∧ Encodable s

/-- What is shown of a value of a JSON text can be written, unless it is a text that cannot be written. -/
theorem Denoted.displays_iff (h : Denoted room v) : Displays v ↔ ∀ s, v = str s → Encodable s := by
  by_cases hstr : ∃ s, v = str s
  · obtain ⟨s, rfl⟩ := hstr
    have hdisplay : (str s).display = .ok s := rfl
    simp [Displays, hdisplay]
  · obtain ⟨s, hs, hencodable⟩ := h.literal
    have hdisplay : v.display? = v.literal? := by
      cases h with
      | scalar h =>
        cases v with
        | str s => exact absurd ⟨s, rfl⟩ hstr
        | list | tuple | dict | loop | again | bytes | date | datetime | set => cases h
        | null | bool | int | float => rfl
      | list _ => rfl
      | dict _ _ => rfl
    refine iff_of_true ⟨s, ?_, hencodable⟩ fun s hv => absurd ⟨s, hv⟩ hstr
    rw [Value.display, hdisplay, Value.literal?, hs]

end Json

end PluginKit
