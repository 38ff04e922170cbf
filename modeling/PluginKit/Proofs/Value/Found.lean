import PluginKit.Proofs.Value.Entries
import PluginKit.Proofs.Value.Outcome

/-!
# Steps that find what they look for

A step that looks into values may end by many faults. `FindsAll` says that it never ends because a key, an operation or a
place of a sequence is missing. Showing values, going through their elements and cutting them never does.
-/

namespace PluginKit

/-- The fault of looking for something in a value: a key, an operation or a place that is not there. -/
def Fault.isLookup : Fault → Bool
  | missingKey _ | noMember _ _ | outOfRange _ => true
  | _ => false

namespace Value

/-- Everything that a step looks for is there. -/
def FindsAll {α : Type} (x : Outcome α) : Prop := ∀ f, x = .error f → f.isLookup = false

section
variable {α β : Type}

theorem findsAll_ok (a : α) : FindsAll (.ok a : Outcome α) := by
  intro f h
  cases h

theorem findsAll_error {f : Fault} (hf : f.isLookup = false) : FindsAll (.error f : Outcome α) := by
  intro g h
  cases h
  exact hf

theorem FindsAll.bind {x : Outcome α} {g : α → Outcome β} (hx : FindsAll x) (hg : ∀ a, x = .ok a → FindsAll (g a)) :
    FindsAll (x >>= g) := by
  intro f h
  rcases bind_eq_error.mp h with h | ⟨a, ha, h⟩
  · exact hx f h
  · exact hg a ha f h

theorem FindsAll.map {x : Outcome α} (hx : FindsAll x) (g : α → β) : FindsAll (x.map g) := by
  cases x with
  | ok a => exact findsAll_ok _
  | error e => exact findsAll_error (hx e rfl)

theorem findsAll_mapM {g : α → Outcome β} {xs : List α} (h : ∀ x ∈ xs, FindsAll (g x)) : FindsAll (xs.mapM g) := by
  induction xs with
  | nil => exact findsAll_ok _
  | cons x xs ih =>
    obtain ⟨hx, hxs⟩ := List.forall_mem_cons.mp h
    rw [List.mapM_cons]
    exact hx.bind fun _ _ => (ih hxs).bind fun _ _ => findsAll_ok _

end

/-! ### Values as texts -/

theorem findsAll_display (v : Value) : FindsAll v.display := by
  unfold display
  split
  · exact findsAll_ok _
  · exact findsAll_error rfl

theorem findsAll_literal (v : Value) : FindsAll v.literal := by
  unfold literal
  split
  · exact findsAll_ok _
  · exact findsAll_error rfl

theorem findsAll_text (v : Value) : FindsAll v.text := by
  unfold text
  split
  · exact findsAll_ok _
  · exact findsAll_error rfl
  · exact findsAll_error rfl

/-! ### Sequences -/

theorem findsAll_elements (v : Value) : FindsAll v.elements := by
  unfold elements
  split
  · exact findsAll_ok _
  · exact findsAll_error rfl

theorem findsAll_length (v : Value) : FindsAll v.length := by
  unfold length
  split
  · exact findsAll_ok _
  · exact findsAll_error rfl

theorem findsAll_front (count : Nat) (v : Value) : FindsAll (v.front count) := by
  unfold front
  split
  · exact findsAll_ok _
  · exact findsAll_ok _
  · exact findsAll_ok _
  · exact findsAll_ok _
  · exact findsAll_error rfl
  · exact findsAll_error rfl

theorem findsAll_textsFrom (index : Nat) (items : List Value) : FindsAll (textsFrom index items) := by
  induction items generalizing index with
  | nil => exact findsAll_ok _
  | cons v items ih =>
    unfold textsFrom
    split
    · exact findsAll_ok _
    · next h =>
      cases h
      exact (ih _).map _
    · exact findsAll_error rfl

theorem findsAll_joinTexts (sep : Text) (v : Value) : FindsAll (v.joinTexts sep) := by
  unfold joinTexts
  split
  · exact (findsAll_textsFrom 0 _).map _
  · exact findsAll_error rfl

/-! ### Records -/

theorem findsAll_item {fields : List (String × Value)} {key : String} {v : Value} (h : fields.lookup key = some v) :
    FindsAll ((record fields).item key) := by
  rw [item_record h]
  exact findsAll_ok v

theorem findsAll_get (fields : List (String × Value)) (key : String) (default : Value) :
    FindsAll ((record fields).get key default) := by
  rw [get_record]
  exact findsAll_ok _

end Value

end PluginKit
