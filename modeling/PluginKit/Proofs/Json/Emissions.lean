import PluginKit.Proofs.Value.Entries
import PluginKit.Json.Writer

/-!
# Writing JSON piece by piece

The pieces of a list or an object are those of its parts with marks between them (`emitItems_cons`,
`emitEntries_cons`). What holds of the characters of every scalar and of every fault that a scalar or a key can end the
writing with therefore holds of the writing of any value (`meets_emit`).
-/

namespace PluginKit.Json

open List

variable {a b : Emission} {v x : Value} {s before : Text} {around : List Nat} {level : Nat} {f : Fault}

namespace Emission

theorem andThen_fault (h : (a.andThen b).fault = none) : a.fault = none ∧ b.fault = none := by
  unfold andThen at h
  cases ha : a.fault with
  | some f =>
    simp only [ha] at h
    cases h
  | none =>
    simp only [ha] at h
    exact ⟨rfl, h⟩

theorem andThen_text (h : a.fault = none) : (a.andThen b).text = a.text ++ b.text := by
  simp only [andThen, h, text, flatten_append]

theorem piece_text (s : Text) : (piece s).text = s := append_nil s

theorem first_text (first : Bool) (s : Text) : (if first then nothing else piece s).text = if first then [] else s := by
  cases first with
  | true => rfl
  | false => exact piece_text s

end Emission

section
variable {layout : Layout}

theorem emit_scalar (h : scalarText? layout.ascii v = some (.ok s)) (level : Nat)
    (around : List Nat) : emit layout level around v = .piece s := by
  cases v with
  | list | tuple | dict | loop | again | bytes | date | datetime | set => cases h
  | null | bool | int | float | str =>
    rw [emit]
    · rw [h]
    all_goals simp

theorem emit_scalar_error {f : Fault} (h : scalarText? layout.ascii v = some (.error f)) (level : Nat)
    (around : List Nat) : emit layout level around v = .fail f := by
  cases v with
  | list | tuple | dict | loop | again | bytes | date | datetime | set => cases h
  | null | bool | int | float | str =>
    rw [emit]
    · rw [h]
    all_goals simp

theorem emit_tuple (level : Nat) (around : List Nat) (items : List Value) :
    emit layout level around (.tuple items) = emit layout level around (.list items) := by
  cases items with
  | nil => rfl
  | cons x items =>
    rw [emit, emit]
    all_goals exact cons_ne_nil x items

def emitItem (layout : Layout) (level : Nat) (around : List Nat) (before : Text) (x : Value) : Emission :=
  match scalarText? layout.ascii x with
  | some (.ok s) => .piece (before ++ s)
  | some (.error f) => .fail f
  | none => (Emission.piece before).andThen (emit layout level around x)

/-- An element is written as it would be alone, behind what opens it. -/
theorem emitItem_ok {level : Nat}
    (h : (emitItem layout level around before x).fault = none) :
    (emit layout level around x).fault = none ∧
      (emitItem layout level around before x).text = before ++ (emit layout level around x).text := by
  unfold emitItem at h ⊢
  cases hs : scalarText? layout.ascii x with
  | none =>
    simp only [hs] at h ⊢
    rw [Emission.andThen_text rfl, Emission.piece_text]
    exact ⟨(Emission.andThen_fault h).2, rfl⟩
  | some o =>
    cases o with
    | error f =>
      simp only [hs] at h
      cases h
    | ok s =>
      simp only [emit_scalar hs]
      rw [Emission.piece_text, Emission.piece_text]
      exact ⟨rfl, rfl⟩

/-- An element that can be written alone can be written behind what opens it. -/
theorem emitItem_fault {level : Nat} (h : (emit layout level around x).fault = none)
    (before : Text) : (emitItem layout level around before x).fault = none := by
  unfold emitItem
  cases hs : scalarText? layout.ascii x with
  | none =>
    simp only [Emission.andThen, Emission.piece]
    exact h
  | some o =>
    cases o with
    | ok s => rfl
    | error f =>
      rw [emit_scalar_error hs] at h
      cases h

theorem emitItems_eq (layout : Layout) (level : Nat) (around : List Nat) (before : Text) (x : Value) (rest : List Value) :
    emitItems layout level around before (x :: rest) = (emitItem layout level around before x).andThen
      (emitItems layout level around (layout.separator level) rest) := by
  rw [emitItems]
  rfl

theorem emitItems_cons {rest : List Value} {level : Nat}
    (h : (emitItems layout level around before (x :: rest)).fault = none) :
    (emit layout level around x).fault = none ∧
      (emitItems layout level around (layout.separator level) rest).fault = none ∧
      (emitItems layout level around before (x :: rest)).text =
        before ++ (emit layout level around x).text ++
          (emitItems layout level around (layout.separator level) rest).text := by
  rw [emitItems_eq] at h ⊢
  obtain ⟨hfirst, hrest⟩ := Emission.andThen_fault h
  obtain ⟨hx, htext⟩ := emitItem_ok hfirst
  rw [Emission.andThen_text hfirst, htext]
  exact ⟨hx, hrest, rfl⟩

theorem emitEntries_cons {k : Value} {rest : List (Value × Value)} {level : Nat} {first : Bool}
    (h : (emitEntries layout level around first ((k, v) :: rest)).fault = none) :
    ∃ key, keyText k = .ok key ∧ (emit layout level around v).fault = none ∧
      (emitEntries layout level around false rest).fault = none ∧
      (emitEntries layout level around first ((k, v) :: rest)).text =
        (if first then [] else layout.separator level) ++
          (quoteText layout.ascii key ++ ": " ++ (emit layout level around v).text) ++
          (emitEntries layout level around false rest).text := by
  rw [emitEntries] at h ⊢
  cases hk : keyText k with
  | error f =>
    simp only [hk] at h
    cases h
  | ok key =>
    simp only [hk] at h ⊢
    obtain ⟨hopen, hafter⟩ := Emission.andThen_fault h
    obtain ⟨hkey, hboth⟩ := Emission.andThen_fault hafter
    obtain ⟨hv, hrest⟩ := Emission.andThen_fault hboth
    refine ⟨key, rfl, hv, hrest, ?_⟩
    rw [Emission.andThen_text hopen, Emission.andThen_text hkey, Emission.andThen_text hv]
    rw [Emission.first_text]
    simp [Emission.text]

theorem Layout.close_text (layout : Layout) (level : Nat) (bracket : Text) :
    (layout.close level bracket).text = layout.newline level ++ bracket := by
  unfold Layout.close Layout.newline
  split
  · simp [Emission.text]
  · exact Emission.piece_text bracket

theorem Layout.openDict_text (layout : Layout) (level : Nat) :
    (layout.openDict level).text = .scalar '\x7b' :: layout.newline (level + 1) := by
  unfold Layout.openDict Layout.newline
  split
  · simp [Emission.text, Text.ofString]
  · rfl

theorem Layout.openDict_fault (layout : Layout) (level : Nat) : (layout.openDict level).fault = none := by
  unfold Layout.openDict
  split <;> rfl

/-! ### What holds of all that is written -/

/-- The characters that stand between scalars. -/
def marks : Text := "[]\x7b\x7d:, \n"

theorem newline_subset_marks (layout : Layout) (level : Nat) : layout.newline level ⊆ marks := by
  unfold Layout.newline
  split
  · refine cons_subset.mpr ⟨by decide, fun c hc => ?_⟩
    rw [eq_of_mem_replicate hc]
    decide
  · exact nil_subset _

theorem separator_subset_marks (layout : Layout) (level : Nat) : layout.separator level ⊆ marks := by
  unfold Layout.separator
  split
  · exact cons_subset.mpr ⟨by decide, newline_subset_marks layout level⟩
  · decide

/-- Only such characters are written, and only such faults end the writing. -/
def Emission.Meets (q : CodePoint → Prop) (ok : Fault → Prop) (e : Emission) : Prop :=
  (∀ c ∈ e.text, q c) ∧ ∀ f, e.fault = some f → ok f

variable {q : CodePoint → Prop} {ok : Fault → Prop} {items : List Value} {entries : List (Value × Value)}

namespace Emission

theorem meets_of_text (h : ∀ c ∈ a.text, q c) (hf : a.fault = none) : a.Meets q ok :=
  ⟨h, fun f hfault => by rw [hf] at hfault; cases hfault⟩

theorem meets_piece (h : ∀ c ∈ s, q c) : (piece s).Meets q ok :=
  meets_of_text (by rw [piece_text]; exact h) rfl

theorem meets_fail (h : ok f) : (fail f).Meets q ok := by
  refine ⟨forall_mem_nil _, fun g hg => ?_⟩
  cases hg
  exact h

theorem Meets.andThen (ha : a.Meets q ok) (hb : b.Meets q ok) : (a.andThen b).Meets q ok := by
  cases hf : a.fault with
  | some f =>
    have hsame : a.andThen b = a := by simp only [Emission.andThen, hf]
    rw [hsame]
    exact ha
  | none =>
    refine ⟨?_, ?_⟩
    · rw [andThen_text hf]
      exact forall_mem_append.mpr ⟨ha.1, hb.1⟩
    · simp only [Emission.andThen, hf]
      exact hb.2

end Emission

open Emission

theorem meets_emitItems (hq : ∀ c ∈ marks, q c) (h : ∀ v ∈ items, (emit layout level around v).Meets q ok)
    (hbefore : ∀ c ∈ before, q c) : (emitItems layout level around before items).Meets q ok := by
  induction items generalizing before with
  | nil =>
    rw [emitItems]
    exact meets_of_text (forall_mem_nil _) rfl
  | cons x items ih =>
    obtain ⟨hx, hitems⟩ := forall_mem_cons.mp h
    rw [emitItems_eq]
    refine Meets.andThen ?_ (ih hitems fun c hc => hq c (separator_subset_marks layout level hc))
    unfold emitItem
    split
    · next s hs =>
      rw [emit_scalar hs] at hx
      refine meets_piece (forall_mem_append.mpr ⟨hbefore, ?_⟩)
      rw [← piece_text s]
      exact hx.1
    · next f hf =>
      rw [emit_scalar_error hf] at hx
      exact hx
    · exact (meets_piece hbefore).andThen hx

theorem meets_close (hq : ∀ c ∈ marks, q c) {bracket : Text} (h : bracket ⊆ marks) :
    (layout.close level bracket).Meets q ok := by
  refine meets_of_text ?_ ?_
  · rw [Layout.close_text]
    exact forall_mem_append.mpr ⟨fun c hc => hq c (newline_subset_marks layout level hc), fun c hc => hq c (h hc)⟩
  · unfold Layout.close
    split <;> rfl

theorem meets_list (hq : ∀ c ∈ marks, q c) (h : ∀ v ∈ items, (emit layout (level + 1) around v).Meets q ok) :
    (emit layout level around (.list items)).Meets q ok := by
  cases items with
  | nil =>
    have hempty : ("[]" : Text) ⊆ marks := by decide
    rw [emit]
    exact meets_piece fun c hc => hq c (hempty hc)
  | cons x items =>
    rw [emit]
    · refine (meets_emitItems hq h ?_).andThen (meets_close hq (by decide))
      exact forall_mem_cons.mpr ⟨hq _ (by decide), fun c hc => hq c (newline_subset_marks layout _ hc)⟩
    · exact cons_ne_nil x items

/-- A key can be written as such characters, or ends the writing by such a fault. -/
def KeyMeets (q : CodePoint → Prop) (ok : Fault → Prop) (layout : Layout) (k : Value) : Prop :=
  (∀ key, keyText k = .ok key → ∀ c ∈ quoteText layout.ascii key, q c) ∧ ∀ f, keyText k = .error f → ok f

theorem meets_emitEntries (hq : ∀ c ∈ marks, q c) (first : Bool)
    (h : ∀ e ∈ entries, KeyMeets q ok layout e.1 ∧ (emit layout level around e.2).Meets q ok) :
    (emitEntries layout level around first entries).Meets q ok := by
  induction entries generalizing first with
  | nil =>
    rw [emitEntries]
    exact meets_of_text (forall_mem_nil _) rfl
  | cons e entries ih =>
    obtain ⟨⟨⟨hkey, hfault⟩, hv⟩, hentries⟩ := forall_mem_cons.mp h
    rw [emitEntries]
    split
    · next f hf => exact meets_fail (hfault f hf)
    · next key hok =>
      refine Meets.andThen ?_ (Meets.andThen ?_ (hv.andThen (ih false hentries)))
      · cases first with
        | true => exact meets_of_text (forall_mem_nil _) rfl
        | false => exact meets_piece fun c hc => hq c (separator_subset_marks layout level hc)
      · refine meets_of_text ?_ rfl
        rw [Emission.text, flatten_cons, flatten_singleton]
        have hcolon : (": " : Text) ⊆ marks := by decide
        exact forall_mem_append.mpr ⟨hkey key hok, fun c hc => hq c (hcolon hc)⟩

theorem meets_dict (hq : ∀ c ∈ marks, q c)
    (h : ∀ e ∈ entries, KeyMeets q ok layout e.1 ∧ (emit layout (level + 1) around e.2).Meets q ok) :
    (emit layout level around (.dict entries)).Meets q ok := by
  cases entries with
  | nil =>
    have hempty : ("\x7b\x7d" : Text) ⊆ marks := by decide
    rw [emit]
    exact meets_piece fun c hc => hq c (hempty hc)
  | cons e entries =>
    rw [emit]
    · refine Meets.andThen (meets_of_text ?_ (layout.openDict_fault level))
        ((meets_emitEntries hq true h).andThen (meets_close hq (by decide)))
      rw [Layout.openDict_text]
      exact forall_mem_cons.mpr ⟨hq _ (by decide), fun c hc => hq c (newline_subset_marks layout _ hc)⟩
    all_goals exact cons_ne_nil e entries

/-- Such characters make up every scalar, and such faults are all that can end a writing. -/
structure WritesOnly (q : CodePoint → Prop) (ok : Fault → Prop) (layout : Layout) : Prop where
  marks : ∀ c ∈ marks, q c
  scalar : ∀ {v s}, scalarText? layout.ascii v = some (.ok s) → ∀ c ∈ s, q c
  scalarFault : ∀ {v f}, scalarText? layout.ascii v = some (.error f) → ok f
  keyFault : ∀ {k f}, keyText k = .error f → ok f
  circular : ok (.badValue .circular)
  notSerializable : ∀ v : Value, ok (.misuse (.notSerializable v.kind))

theorem meets_emit (h : WritesOnly q ok layout) :
    ∀ (v : Value) (level : Nat) (around : List Nat), (emit layout level around v).Meets q ok
  | .list items, level, around => meets_list h.marks fun v hv => meets_emit h v (level + 1) around
  | .tuple items, level, around => by
    rw [emit_tuple]
    exact meets_list h.marks fun v hv => meets_emit h v (level + 1) around
  | .dict entries, level, around =>
    meets_dict h.marks fun e he =>
      ⟨⟨fun key _ => h.scalar (v := .str key) rfl, fun f => h.keyFault⟩, meets_emit h e.2 (level + 1) around⟩
  | .loop mark body, level, around => by
    rw [emit]
    split
    · exact meets_fail h.circular
    · exact meets_emit h body level (mark :: around)
  | .again mark, level, around => by
    rw [emit]
    exact meets_fail h.circular
  | .null, level, around | .bool _, level, around | .int _, level, around | .float _, level, around
  | .str _, level, around | .bytes _, level, around | .date _, level, around | .datetime _, level, around
  | .set _, level, around => by
    rw [emit]
    · split
      · next hs => exact meets_piece (h.scalar hs)
      · next hf => exact meets_fail (h.scalarFault hf)
      · exact meets_fail (h.notSerializable _)
    all_goals simp
termination_by v => sizeOf v
decreasing_by
  · decreasing_tactic
  · decreasing_tactic
  · have := sizeOf_lt_of_mem he
    cases e
    simp only [Value.dict.sizeOf_spec, Prod.mk.sizeOf_spec] at this ⊢
    omega
  · decreasing_tactic

end

end PluginKit.Json
