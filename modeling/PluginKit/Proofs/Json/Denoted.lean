import PluginKit.Proofs.Json.Reread
import PluginKit.Proofs.Text.Encodable

/-!
# What a JSON text can denote

The reader returns scalars, lists, and dictionaries whose keys are different texts, and never more of them inside each
other than its limits allow (`denoted_of_read`). Such a value can be written and read again, whatever its depth was.
-/

namespace PluginKit.Json

open List
open Value (named)

variable {room : Nat} {v : Value} {entries : List (Value × Value)} {items : List Value}

/-- The value of a JSON text, with at most so many collections inside each other. -/
inductive Denoted : Nat → Value → Prop where
  | scalar {room : Nat} {v : Value} (h : (scalarText? false v).isSome = true) (hliteral : v.literal?.isSome = true) :
    Denoted room v
  | list {room : Nat} {items : List Value} (h : ∀ v ∈ items, Denoted room v) : Denoted (room + 1) (.list items)
  | dict {room : Nat} {fields : List (Text × Value)} (hnodup : (fields.map (·.1)).Nodup)
    (h : ∀ f ∈ fields, Denoted room f.2) : Denoted (room + 1) (.dict (named fields))

theorem Denoted.view_eq (h : Denoted room v) : v.view = v := by
  cases h with
  | scalar h =>
    cases v with
    | loop => cases h
    | _ => rfl
  | list _ => rfl
  | dict _ _ => rfl

theorem Denoted.field {key : Text}
    (h : Denoted room (.dict entries)) (hv : Value.field? key entries = some v) : ∃ room', Denoted room' v := by
  cases h with
  | scalar h => cases h
  | dict _ h =>
    rw [Value.field?_named] at hv
    exact ⟨_, h _ (Value.mem_of_lookup hv)⟩

/-! ### Texts that denote nothing -/

/-- What is said about a text that denotes nothing can be written. -/
theorem encodable_message (e : ReadError) (text : Text) : Encodable (e.message text) := by
  unfold ReadError.message
  refine Encodable.append ?_ (encodable_ofString _)
  cases e.problem
  all_goals exact encodable_ofString _

/-! ### Depth -/

theorem itemsDepth_le (h : ∀ v ∈ items, depth v ≤ room) : itemsDepth items ≤ room := by
  induction items with
  | nil => exact Nat.zero_le _
  | cons v items ih =>
    obtain ⟨hv, hitems⟩ := forall_mem_cons.mp h
    have := ih hitems
    rw [itemsDepth]
    omega

theorem entriesDepth_le {fields : List (Text × Value)} (h : ∀ f ∈ fields, depth f.2 ≤ room) :
    entriesDepth (named fields) ≤ room := by
  induction fields with
  | nil => exact Nat.zero_le _
  | cons f fields ih =>
    obtain ⟨hf, hfields⟩ := forall_mem_cons.mp h
    have := ih hfields
    rw [named, map_cons, entriesDepth, ← named]
    omega

theorem Denoted.depth_le (h : Denoted room v) : depth v ≤ room := by
  induction h with
  | @scalar room v h =>
    cases v with
    | list | tuple | dict | loop | again | bytes | date | datetime | set => cases h
    | null | bool | int | float | str => exact Nat.zero_le _
  | list _ ih =>
    have := itemsDepth_le ih
    rw [depth]
    omega
  | dict _ _ ih =>
    have := entriesDepth_le ih
    rw [depth]
    omega

/-! ### Reading -/

section
variable {limits : Limits} {level fuel : Nat} {p q : Place}

theorem bind_eq_ok {α β : Type} {x : Reading α} {f : α → Reading β} {b : β} (h : x >>= f = .ok b) :
    ∃ a, x = .ok a ∧ f a = .ok b := by
  cases x with
  | error e => cases h
  | ok a => exact ⟨a, rfl, h⟩

theorem denoted_int {n : Int} (h : n.natAbs < Nat.pow 10 Text.maxDigits) : Denoted room (.int n) := by
  refine .scalar rfl ?_
  rw [show (Value.int n).literal? = Value.integer? n from rfl, Value.integer?, if_pos h, Option.isSome_some]

theorem denoted_readNumber (hdigits : limits.digits ≤ Text.maxDigits)
    (h : readNumber limits p = .ok (v, q)) : Denoted room v := by
  have hpow : ∀ m k : Nat, m ≤ k → 10 ^ m ≤ Nat.pow 10 k := fun m k h => Nat.pow_le_pow_right (by decide) h
  have hmagnitude : ∀ negative body, readMagnitude limits p negative body = .ok (v, q) → Denoted room v := by
    intro negative body h
    unfold readMagnitude at h
    split at h
    · cases h
    · next whole _ =>
      dsimp only at h
      generalize fractionDigits (body.drop whole.length) = fraction at h
      generalize exponentPart? _ = exponent at h
      by_cases hwhole : (fraction.isEmpty && exponent.isNone) = true
      · rw [if_pos hwhole] at h
        rw [Bool.and_eq_true, List.isEmpty_iff] at hwhole
        rw [hwhole.1, append_nil] at h
        by_cases hlong : limits.digits < whole.length
        · rw [if_pos hlong] at h
          cases h
        · rw [if_neg hlong] at h
          cases h
          refine denoted_int (lt_of_lt_of_le ?_ (hpow whole.length _ (le_trans (Nat.not_lt.mp hlong) hdigits)))
          split
          · rw [Int.natAbs_neg, Int.natAbs_natCast]
            exact Text.digitsValue?_lt
          · rw [Int.natAbs_natCast]
            exact Text.digitsValue?_lt
      · rw [if_neg hwhole] at h
        cases h
        exact .scalar rfl rfl
  unfold readNumber at h
  split at h
  · exact hmagnitude _ _ h
  · exact hmagnitude _ _ h

theorem denoted_word {cs : Text} {w : Text × Value} (h : word? cs = some w) : Denoted room w.2 := by
  have hmem := mem_of_find?_eq_some h
  simp only [words, mem_cons, not_mem_nil, or_false] at hmem
  rcases hmem with rfl | rfl | rfl | rfl | rfl | rfl
  all_goals exact .scalar rfl rfl

structure ReadsDenoted (limits : Limits) (fuel : Nat) : Prop where
  value : ∀ {level p v q}, readValue limits level fuel p = .ok (v, q) → Denoted (limits.depth - level) v
  items : ∀ {level p items q}, readItems limits level fuel p = .ok (items, q) →
    ∀ v ∈ items, Denoted (limits.depth - level) v
  entries : ∀ {level p entries q}, readEntries limits level fuel p = .ok (entries, q) →
    ∃ fields, entries = named fields ∧ ∀ f ∈ fields, Denoted (limits.depth - level) f.2

theorem ReadsDenoted.value_succ (hdigits : limits.digits ≤ Text.maxDigits) (ih : ReadsDenoted limits fuel)
    (h : readValue limits level (fuel + 1) p = .ok (v, q)) : Denoted (limits.depth - level) v := by
  have hroom : ¬ limits.depth ≤ level → limits.depth - level = limits.depth - (level + 1) + 1 := by omega
  rw [readValue] at h
  split at h
  · obtain ⟨r, -, hr⟩ := bind_eq_ok h
    cases hr
    exact .scalar rfl rfl
  · split at h
    · cases h
    · next hd =>
      rw [hroom hd]
      dsimp only at h
      split at h
      · cases h
        exact .list (forall_mem_nil _)
      · obtain ⟨r, hr, h⟩ := bind_eq_ok h
        cases h
        exact .list (ih.items hr)
  · split at h
    · cases h
    · next hd =>
      rw [hroom hd]
      dsimp only at h
      split at h
      · cases h
        exact @Denoted.dict _ [] nodup_nil (forall_mem_nil _)
      · obtain ⟨r, hr, h⟩ := bind_eq_ok h
        cases h
        obtain ⟨fields, hfields, hdenoted⟩ := ih.entries hr
        obtain ⟨once, honce, hnodup, hmem⟩ := Value.exists_insertAll_named [] fields nodup_nil
        have hinserted : Value.insertAll [] r.1 = named once := by
          rw [hfields]
          exact honce
        rw [hinserted]
        refine .dict hnodup fun f hf => hdenoted f ?_
        exact (hmem f hf).resolve_left not_mem_nil
  · split at h
    · next w hw =>
      cases h
      exact denoted_word hw
    · exact denoted_readNumber hdigits h

theorem ReadsDenoted.items_succ (ih : ReadsDenoted limits fuel)
    (h : readItems limits level (fuel + 1) p = .ok (items, q)) : ∀ v ∈ items, Denoted (limits.depth - level) v := by
  rw [readItems] at h
  obtain ⟨r, hr, h⟩ := bind_eq_ok h
  have hx := ih.value hr
  dsimp only at h
  split at h
  · cases h
    exact forall_mem_singleton.mpr hx
  · obtain ⟨rest, hrest, h⟩ := bind_eq_ok h
    cases h
    exact forall_mem_cons.mpr ⟨hx, ih.items hrest⟩
  · cases h

theorem ReadsDenoted.entries_succ (ih : ReadsDenoted limits fuel)
    (h : readEntries limits level (fuel + 1) p = .ok (entries, q)) :
    ∃ fields, entries = named fields ∧ ∀ f ∈ fields, Denoted (limits.depth - level) f.2 := by
  rw [readEntries] at h
  split at h
  · obtain ⟨key, -, h⟩ := bind_eq_ok h
    dsimp only at h
    split at h
    · obtain ⟨r, hr, h⟩ := bind_eq_ok h
      have hx := ih.value hr
      split at h
      · cases h
        exact ⟨[(key.1, r.1)], rfl, forall_mem_singleton.mpr hx⟩
      · obtain ⟨rest, hrest, h⟩ := bind_eq_ok h
        cases h
        obtain ⟨fields, hfields, hdenoted⟩ := ih.entries hrest
        refine ⟨(key.1, r.1) :: fields, ?_, forall_mem_cons.mpr ⟨hx, hdenoted⟩⟩
        rw [hfields]
        rfl
      · cases h
    · cases h
  · cases h

theorem readsDenoted (hdigits : limits.digits ≤ Text.maxDigits) (fuel : Nat) : ReadsDenoted limits fuel := by
  induction fuel with
  | zero =>
    constructor
    all_goals
      intro level p x q h
      cases h
  | succ fuel ih => exact ⟨ih.value_succ hdigits, ih.items_succ, ih.entries_succ⟩

end

/-- **What was read** is made of scalars, lists and dictionaries with different texts as keys, and is not too deep. -/
theorem denoted_of_read {text : Text} (h : read text = .ok v) : Denoted usualLimits.depth v := by
  rw [read, readWithin] at h
  split at h
  · cases h
  · obtain ⟨r, hr, h⟩ := bind_eq_ok h
    have hv := (@readsDenoted usualLimits (Nat.le_refl _) _).value hr
    dsimp only at h
    split at h
    · cases h
      exact hv
    · cases h

end PluginKit.Json
