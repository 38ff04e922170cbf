import Mathlib.Tactic
import PluginKit.Value.Access

/-!
# Entries with text keys

Setting keys one after another keeps entries as they are if no key comes twice (`insertAll_nil_named`), and looking
up a key finds the first entry with it (`get_named`, `item_record`).
-/

namespace PluginKit.Value

open List

variable {key : Text} {entries fields : List (Text × Value)} {v : Value}

def named (entries : List (Text × Value)) : List (Value × Value) :=
  entries.map fun e => (.str e.1, e.2)

theorem same_str (s t : Text) : (str s).same (str t) = (s == t) := by rw [same]

theorem insert_named (h : ∀ e ∈ entries, e.1 ≠ key) (v : Value) :
    insert (str key) v (named entries) = named (entries ++ [(key, v)]) := by
  induction entries with
  | nil => rfl
  | cons e entries ih =>
    have hne : ¬ (e.1 == key) = true := by simpa using h e mem_cons_self
    have ih := ih fun e he => h e (mem_cons_of_mem _ he)
    rw [named, map_cons, insert, same_str, if_neg hne, ← named, ih]
    rfl

theorem insertAll_named {new : List (Text × Value)} (h : ((entries ++ new).map (·.1)).Nodup) :
    insertAll (named entries) (named new) = named (entries ++ new) := by
  induction new generalizing entries with
  | nil => rw [append_nil]; rfl
  | cons e new ih =>
    have hmove : entries ++ e :: new = entries ++ [e] ++ new := by simp
    have hfresh : ∀ x ∈ entries, x.1 ≠ e.1 := by
      intro x hx he
      rw [map_append, nodup_append] at h
      exact h.2.2 x.1 (mem_map_of_mem hx) e.1 mem_cons_self he
    rw [hmove] at h ⊢
    rw [← ih h, ← insert_named hfresh]
    rfl

/-- **Different keys stay in the order in which they are set.** -/
theorem insertAll_nil_named (entries : List (Text × Value)) (h : (entries.map (·.1)).Nodup) :
    insertAll [] (named entries) = named entries := by
  rw [← nil_append entries] at h
  exact insertAll_named h

/-! ### Fields that are set -/

/-- The fields with one set: in place if the key is there, else at the end. -/
def setField (key : Text) (v : Value) : List (Text × Value) → List (Text × Value)
  | [] => [(key, v)]
  | f :: rest => if f.1 = key then (key, v) :: rest else f :: setField key v rest

theorem insert_str (key : Text) (v : Value) (fields : List (Text × Value)) :
    insert (str key) v (named fields) = named (setField key v fields) := by
  induction fields with
  | nil => rfl
  | cons f fields ih =>
    rw [named, map_cons, insert, same_str, ← named, ih, setField]
    by_cases h : f.1 = key
    · rw [if_pos (beq_iff_eq.mpr h), if_pos h, h]
      rfl
    · rw [if_neg (fun hb => h (beq_iff_eq.mp hb)), if_neg h]
      rfl

theorem keys_setField (key : Text) (v : Value) (fields : List (Text × Value)) :
    (setField key v fields).map (·.1)
      = if key ∈ fields.map (·.1) then fields.map (·.1) else fields.map (·.1) ++ [key] := by
  induction fields with
  | nil => simp [setField]
  | cons f fields ih =>
    rw [setField]
    by_cases h : f.1 = key
    · simp [h]
    · have hne : ¬ key = f.1 := fun he => h he.symm
      rw [if_neg h, map_cons, map_cons, ih]
      by_cases hmem : key ∈ fields.map (·.1)
      · rw [if_pos hmem, if_pos (mem_cons_of_mem _ hmem)]
      · rw [if_neg hmem, if_neg, cons_append]
        exact not_mem_cons_of_ne_of_not_mem hne hmem

theorem nodup_setField (h : (fields.map (·.1)).Nodup) (key : Text) (v : Value) :
    ((setField key v fields).map (·.1)).Nodup := by
  rw [keys_setField]
  split
  · exact h
  · next hmem => exact nodup_append.mpr ⟨h, nodup_singleton key, fun a ha b hb => by
      rw [mem_singleton.mp hb]
      rintro rfl
      exact hmem ha⟩

theorem mem_setField {f : Text × Value} (h : f ∈ setField key v fields) : f ∈ fields ∨ f = (key, v) := by
  induction fields with
  | nil => exact .inr (mem_singleton.mp h)
  | cons g fields ih =>
    rw [setField] at h
    split at h
    · rcases mem_cons.mp h with rfl | h
      · exact .inr rfl
      · exact .inl (mem_cons_of_mem _ h)
    · rcases mem_cons.mp h with rfl | h
      · exact .inl mem_cons_self
      · exact (ih h).imp_left (mem_cons_of_mem _)

/-- Setting keys one after another gives each key once, with one of the values it was set to. -/
theorem exists_insertAll_named (entries new : List (Text × Value)) (h : (entries.map (·.1)).Nodup) :
    ∃ fields, insertAll (named entries) (named new) = named fields ∧ (fields.map (·.1)).Nodup ∧
      ∀ f ∈ fields, f ∈ entries ∨ f ∈ new := by
  induction new generalizing entries with
  | nil => exact ⟨entries, rfl, h, fun f hf => .inl hf⟩
  | cons e new ih =>
    obtain ⟨fields, hfields, hnodup, hmem⟩ := ih (setField e.1 e.2 entries) (nodup_setField h e.1 e.2)
    refine ⟨fields, ?_, hnodup, fun f hf => ?_⟩
    · rw [← hfields, ← insert_str]
      rfl
    · rcases hmem f hf with hf | hf
      · rcases mem_setField hf with hf | rfl
        · exact .inl hf
        · exact .inr mem_cons_self
      · exact .inr (mem_cons_of_mem _ hf)

theorem field?_named (key : Text) (fields : List (Text × Value)) : field? key (named fields) = fields.lookup key := by
  induction fields with
  | nil => rfl
  | cons f fields ih =>
    obtain ⟨k, v⟩ := f
    by_cases h : key = k
    · subst h
      rw [lookup_cons_self]
      simp [field?, named, isStr]
    · rw [lookup_cons, beq_eq_false_iff_ne.mpr h, ← ih]
      simp [field?, named, isStr, h]

theorem lookup_setField (key k : Text) (v : Value) (fields : List (Text × Value)) :
    (setField key v fields).lookup k = if k = key then some v else fields.lookup k := by
  induction fields with
  | nil =>
    rw [setField, lookup_cons]
    by_cases h : k = key
    · rw [if_pos h, beq_iff_eq.mpr h]
    · rw [if_neg h, beq_eq_false_iff_ne.mpr h]
  | cons f fields ih =>
    obtain ⟨k', v'⟩ := f
    rw [setField]
    by_cases hk : k' = key
    · subst hk
      rw [if_pos rfl, lookup_cons, lookup_cons]
      by_cases h : k = k'
      · rw [if_pos h, beq_iff_eq.mpr h]
      · rw [if_neg h, beq_eq_false_iff_ne.mpr h]
    · rw [if_neg hk, lookup_cons, lookup_cons, ih]
      by_cases h : k = k'
      · subst h
        rw [if_neg hk, if_neg hk, beq_self_eq_true]
      · rw [beq_eq_false_iff_ne.mpr h]

theorem holds_dict (entries : List (Value × Value)) (key : Text) :
    (dict entries).holds key = .ok (field? key entries).isSome := rfl

theorem item_dict {entries : List (Value × Value)} (h : field? key entries = some v) :
    (dict entries).item key = .ok v := by
  unfold item
  dsimp only [view]
  rw [h]

theorem item_named (h : fields.lookup key = some v) : (dict (named fields)).item key = .ok v :=
  item_dict (by rw [field?_named, h])

theorem setItem_named (fields : List (Text × Value)) (key : Text) (v : Value) :
    (dict (named fields)).setItem key v = .ok (dict (named (setField key v fields))) := by
  rw [← insert_str]
  rfl

theorem holds_named (fields : List (Text × Value)) (key : Text) :
    (dict (named fields)).holds key = .ok (fields.lookup key).isSome := by
  rw [holds_dict, field?_named]

theorem mem_of_lookup (h : fields.lookup key = some v) : (key, v) ∈ fields := by
  induction fields with
  | nil => cases h
  | cons f fields ih =>
    obtain ⟨k, w⟩ := f
    rw [lookup_cons] at h
    by_cases hk : key = k
    · subst hk
      rw [beq_self_eq_true] at h
      cases h
      exact mem_cons_self
    · rw [beq_eq_false_iff_ne.mpr hk] at h
      exact mem_cons_of_mem _ (ih h)

theorem field?_named_self (key : Text) (v : Value) (entries : List (Text × Value)) :
    field? key (named ((key, v) :: entries)) = some v := by
  simp [field?, named, isStr]

theorem field?_named_of_ne {k : Text} (h : key ≠ k) (v : Value) (entries : List (Text × Value)) :
    field? key (named ((k, v) :: entries)) = field? key (named entries) := by
  simp [field?, named, isStr, h]

theorem get_named (entries : List (Text × Value)) (key : Text) (default : Value) :
    (dict (named entries)).get key default = .ok ((field? key (named entries)).getD default) := rfl

/-! ### Records -/

theorem ofString_ne {s t : String} (h : s ≠ t) : Text.ofString s ≠ Text.ofString t := by
  intro he
  have hlist := map_injective_iff.mpr (fun _ _ hc => CodePoint.scalar.inj hc) he
  exact h (String.toList_inj.mp hlist)

/-- Looking up a key of a record is looking it up among its fields. -/
theorem field?_record (fields : List (String × Value)) (key : String) :
    field? key (fields.map fun f => (str f.1, f.2)) = fields.lookup key := by
  induction fields with
  | nil => rfl
  | cons f fields ih =>
    obtain ⟨k, v⟩ := f
    by_cases h : key = k
    · subst h
      rw [lookup_cons_self]
      simp [field?, isStr]
    · have hkey : (key == k) = false := beq_eq_false_iff_ne.mpr h
      rw [lookup_cons, hkey, ← ih]
      simp [field?, isStr, ofString_ne h]

theorem get_record (fields : List (String × Value)) (key : String) (default : Value) :
    (record fields).get key default = .ok ((fields.lookup key).getD default) := by
  rw [← field?_record]
  rfl

theorem holds_record (fields : List (String × Value)) (key : String) :
    (record fields).holds key = .ok (fields.lookup key).isSome := by
  rw [← field?_record]
  rfl

theorem item_record {fields : List (String × Value)} {key : String} (h : fields.lookup key = some v) :
    (record fields).item key = .ok v :=
  item_dict (by rw [field?_record, h])

end PluginKit.Value
