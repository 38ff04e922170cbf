import PluginKit.Proofs.Json.Reread

/-!
# Values on one line

A value of nulls, truth values, whole numbers, texts, lists and dictionaries with text keys (`MadeOf`) is written
compactly on one line of printable ASCII characters, and reads back as itself (`CompactForm`), except that two halves
of a surrogate pair that stand side by side in a text come back as one character (`joined`). Only whole numbers with
too many digits cannot be written (`write_compact_iff`).
-/

namespace PluginKit.Json

open List
open Value (named)

variable {s t : Text} {whole : Int → Prop} {text : Text → Prop} {v : Value} {n : Int} {items : List Value}
  {fields : List (Text × Value)} {layout : Layout} {level : Nat} {around : List Nat}

/-! ### Printable characters -/

/-- The text holds printable ASCII characters only. -/
def IsPrintable (s : Text) : Prop := ∀ c ∈ s, 32 ≤ c.toNat ∧ c.toNat < 127

instance : DecidablePred IsPrintable := fun s =>
  inferInstanceAs (Decidable (∀ c ∈ s, 32 ≤ c.toNat ∧ c.toNat < 127))

theorem IsPrintable.append (hs : IsPrintable s) (ht : IsPrintable t) : IsPrintable (s ++ t) :=
  forall_mem_append.mpr ⟨hs, ht⟩

theorem isPrintable_join {sep : Text} (hsep : IsPrintable sep) {texts : List Text} (h : ∀ s ∈ texts, IsPrintable s) :
    IsPrintable (Text.join sep texts) := (Text.forall_mem_join_iff hsep).mpr h

theorem IsPrintable.newline_not_mem (h : IsPrintable s) : (.scalar '\n' : CodePoint) ∉ s := by
  intro hmem
  have := (h _ hmem).1
  exact absurd this (by decide)

theorem isPrintable_unitEscape (n : Nat) : IsPrintable (unitEscape n) := by
  have hhex : IsPrintable (Text.hexNat 4 n) := Text.forall_mem_hexNat (by decide) 4 n
  have hmark : IsPrintable ['\\', 'u'] := by decide
  exact hmark.append hhex

theorem isPrintable_escapeChar (c : CodePoint) : IsPrintable (escapeChar true c) := by
  have hcharEscape : IsPrintable (charEscape c) := by
    unfold charEscape
    simp only
    split
    · exact isPrintable_unitEscape _
    · exact (isPrintable_unitEscape _).append (isPrintable_unitEscape _)
  unfold escapeChar
  split_ifs with _ _ _ _ _ _ _ hlow hhigh
  · decide
  · decide
  · decide
  · decide
  · decide
  · decide
  · decide
  · exact isPrintable_unitEscape _
  · exact hcharEscape
  · simp only [Bool.true_and, decide_eq_true_eq] at hhigh
    exact forall_mem_singleton.mpr ⟨by omega, by omega⟩

theorem isPrintable_quoteText (s : Text) : IsPrintable (quoteText true s) := by
  have hbody : IsPrintable (s.flatMap (escapeChar true)) := by
    intro c hc
    obtain ⟨d, -, hd⟩ := mem_flatMap.mp hc
    exact isPrintable_escapeChar d c hd
  have hquote : IsPrintable "\"" := by decide
  exact (hquote.append hbody).append hquote

theorem isPrintable_ofInt (n : Int) : IsPrintable (Numeral.ofInt n).text := by
  have hdigits : IsPrintable ((Nat.toDigits 10 n.natAbs).map CodePoint.scalar) :=
    Text.forall_mem_toDigits (by decide) (by decide) _
  rw [Numeral.text_ofInt, ofString_toString_int]
  split
  · exact IsPrintable.append (by decide) hdigits
  · exact hdigits

/-! ### Texts -/

theorem escaping_ascii : Escaping (escapeChar true) where
  half := by
    intro c hc
    have hne : ∀ d : Char, c ≠ .scalar d := by
      rintro d rfl
      cases hc
    have hhalf : 0xD800 ≤ c.toNat := by
      cases c with
      | scalar d => cases hc
      | surrogate half => exact Nat.le_add_right _ _
    have hlt := toNat_lt_of_isSurrogate hc
    unfold escapeChar charEscape
    simp only [hne, if_false, Bool.true_and]
    rw [if_neg (by omega), if_pos (by simp; omega), if_pos hlt]
  reads := fun c hc start fuel off t ht => readText_escapeChar true hc start fuel off ht
  notLow := fun c hc t => lowHalf_escapeChar true hc t

theorem quotedReads_ascii (s : Text) : QuotedReads (quoteText true s) (joinHalves s) := by
  have hquoted : quoteText true s = quotedBy (escapeChar true) s := by
    simp [quoteText, quotedBy, Text.ofString]
  rw [hquoted]
  exact escaping_ascii.quotedReads s

/-! ### Values -/

/-- The value is made of nulls, truth values, whole numbers and texts of some kind, lists, and dictionaries whose keys
are different texts of that kind. -/
inductive MadeOf (whole : Int → Prop) (text : Text → Prop) : Value → Prop where
  | null : MadeOf whole text .null
  | bool (b : Bool) : MadeOf whole text (.bool b)
  | int {n : Int} (h : whole n) : MadeOf whole text (.int n)
  | str {s : Text} (h : text s) : MadeOf whole text (.str s)
  | list {items : List Value} (h : ∀ v ∈ items, MadeOf whole text v) : MadeOf whole text (.list items)
  | dict {fields : List (Text × Value)} (hnodup : (fields.map (·.1)).Nodup) (hkeys : ∀ f ∈ fields, text f.1)
    (h : ∀ f ∈ fields, MadeOf whole text f.2) : MadeOf whole text (.dict (named fields))

theorem MadeOf.mono {whole' : Int → Prop} {text' : Text → Prop} (hwhole : ∀ n, whole n → whole' n)
    (htext : ∀ s, text s → text' s) (h : MadeOf whole text v) : MadeOf whole' text' v := by
  induction h with
  | null => exact .null
  | bool b => exact .bool b
  | int h => exact .int (hwhole _ h)
  | str h => exact .str (htext _ h)
  | list _ ih => exact .list ih
  | dict hnodup hkeys _ ih => exact .dict hnodup (fun f hf => htext _ (hkeys f hf)) ih

mutual

/-- The value with the halves of surrogate pairs joined in all its texts. Of keys that become equal the last one counts,
in the place of the first. -/
def joined : Value → Value
  | .str s => .str (joinHalves s)
  | .list items => .list (joinedItems items)
  | .dict entries => .dict (Value.insertAll [] (joinedEntries entries))
  | v => v

def joinedItems : List Value → List Value
  | [] => []
  | v :: rest => joined v :: joinedItems rest

def joinedEntries : List (Value × Value) → List (Value × Value)
  | [] => []
  | (k, v) :: rest => (joined k, joined v) :: joinedEntries rest

end

theorem joinedItems_eq (items : List Value) : joinedItems items = items.map joined := by
  induction items with
  | nil => rfl
  | cons v items ih => rw [joinedItems, ih, map_cons]

theorem joinedEntries_named (fields : List (Text × Value)) :
    joinedEntries (named fields) = named (fields.map fun f => (joinHalves f.1, joined f.2)) := by
  induction fields with
  | nil => rfl
  | cons f fields ih =>
    rw [named, map_cons, joinedEntries, ← named, ih, joined]
    rfl

theorem MadeOf.joined_eq (h : MadeOf whole (fun s => joinHalves s = s) v) : joined v = v := by
  induction h with
  | null | bool | int => rfl
  | str h => rw [joined, h]
  | @list items _ ih =>
    rw [joined, joinedItems_eq, map_congr_left ih, map_id']
  | @dict fields hnodup hkeys _ ih =>
    have hfields : (fields.map fun f => (joinHalves f.1, joined f.2)) = fields := by
      rw [map_congr_left fun f hf => by rw [hkeys f hf, ih f hf], map_id']
    rw [joined, joinedEntries_named, hfields, Value.insertAll_nil_named fields hnodup]

def compactText (v : Value) : Text := (emit compact 0 [] v).text

/-- The value can be written, the same way wherever it stands, and its text reads back. -/
structure CompactForm (v : Value) : Prop where
  written : ∀ level around,
    (emit compact level around v).fault = none ∧ (emit compact level around v).text = compactText v
  printable : IsPrintable (compactText v)
  reads : ∀ (limits : Limits) (level : Nat), Text.maxDigits ≤ limits.digits → level + depth v ≤ limits.depth →
    ReadsTo limits level (compactText v) (.ok (joined v))

theorem CompactForm.of_text
    (hwritten : ∀ level around, (emit compact level around v).fault = none ∧ (emit compact level around v).text = s)
    (hprintable : IsPrintable s)
    (hreads : ∀ (limits : Limits) (level : Nat), Text.maxDigits ≤ limits.digits → level + depth v ≤ limits.depth →
      ReadsTo limits level s (.ok (joined v))) : CompactForm v := by
  have htext : compactText v = s := (hwritten 0 []).2
  subst htext
  exact ⟨hwritten, hprintable, hreads⟩

theorem compactForm_scalar (h : scalarText? true v = some (.ok s)) (hs : IsPrintable s)
    (hreads : ∀ (limits : Limits) (level : Nat), Text.maxDigits ≤ limits.digits →
      ReadsTo limits level s (.ok (joined v))) : CompactForm v := by
  refine .of_text (fun level around => ?_) hs fun limits level hdigits _ => hreads limits level hdigits
  have hemit : emit compact level around v = .piece s := @emit_scalar v s compact h level around
  rw [hemit, Emission.piece_text]
  exact ⟨rfl, rfl⟩

theorem compactForm_word {w : Text} (hw : (w, v) ∈ words) (h : scalarText? true v = some (.ok w))
    (hs : IsPrintable w) (hv : joined v = v) : CompactForm v :=
  compactForm_scalar h hs fun _ _ _ => by rw [hv]; exact readsTo_word hw

theorem compactForm_str (s : Text) : CompactForm (.str s) :=
  compactForm_scalar rfl (isPrintable_quoteText s) fun _ _ _ => readsTo_text (quotedReads_ascii s)

def Short (n : Int) : Prop := n.natAbs < Nat.pow 10 Text.maxDigits

theorem short_of_lt (h : n.natAbs < Text.maxDigits) : Short n := by
  unfold Short
  generalize Text.maxDigits = digits at h ⊢
  exact h.trans (Nat.lt_pow_self (by decide))

theorem integerText_iff : (∃ s, integerText n = .ok s) ↔ Short n := by
  unfold integerText Value.literal Value.literal? Value.literalIn Value.integer? Short
  split
  · next h =>
    split at h
    · next hlt => exact iff_of_true ⟨_, rfl⟩ hlt
    · cases h
  · next h =>
    split at h
    · cases h
    · next hlt =>
      refine iff_of_false ?_ hlt
      rintro ⟨s, hs⟩
      cases hs

theorem compactForm_int (h : Short n) : CompactForm (.int n) := by
  obtain ⟨s, hs⟩ := integerText_iff.mpr h
  obtain ⟨rfl, hlen⟩ := integerText_ok hs
  refine compactForm_scalar (congrArg some hs) (isPrintable_ofInt n) fun limits level hdigits => ?_
  have hread := @readsTo_number limits level _ (Numeral.wellFormed_ofInt n) fun _ => hlen.trans hdigits
  rw [Numeral.value_ofInt] at hread
  exact hread

theorem Emission.andThen_ok {a b : Emission} (ha : a.fault = none ∧ a.text = s)
    (hb : b.fault = none ∧ b.text = t) : (a.andThen b).fault = none ∧ (a.andThen b).text = s ++ t := by
  refine ⟨?_, by rw [Emission.andThen_text ha.1, ha.2, hb.2]⟩
  simp only [Emission.andThen, ha.1]
  exact hb.1

/-! ### Lists -/

theorem emitItems_compact (h : ∀ v ∈ items, CompactForm v) (level : Nat) (around : List Nat)
    (before : Text) : (emitItems compact level around before items).fault = none ∧
      (emitItems compact level around before items).text = opened before ", " (items.map compactText) := by
  induction items generalizing before with
  | nil =>
    rw [emitItems]
    exact ⟨rfl, rfl⟩
  | cons x items ih =>
    obtain ⟨hx, hitems⟩ := forall_mem_cons.mp h
    obtain ⟨hfault, htext⟩ := hx.written level around
    have hitem := emitItem_fault hfault before
    have hspelled : (emitItem compact level around before x).text = before ++ compactText x := by
      rw [(emitItem_ok hitem).2, htext]
    rw [emitItems_eq, map_cons, ← opened_cons]
    exact Emission.andThen_ok ⟨hitem, hspelled⟩ (ih hitems _)

theorem depth_le_itemsDepth (h : v ∈ items) : depth v ≤ itemsDepth items := by
  induction items with
  | nil => cases h
  | cons x items ih =>
    rw [itemsDepth]
    rcases mem_cons.mp h with rfl | h
    · exact Nat.le_max_left _ _
    · exact (ih h).trans (Nat.le_max_right _ _)

theorem emit_compactList (h : ∀ v ∈ items, CompactForm v) (level : Nat) (around : List Nat) :
    (emit compact level around (.list items)).fault = none ∧
      (emit compact level around (.list items)).text = (compact.spacing 0).list (items.map compactText) := by
  cases items with
  | nil =>
    rw [emit]
    exact ⟨rfl, rfl⟩
  | cons x items =>
    rw [emit, ← opened_list 0 (by simp)]
    · exact Emission.andThen_ok (emitItems_compact h _ _ _) ⟨rfl, compact.close_text level "]"⟩
    · exact cons_ne_nil x items

theorem compactForm_list (h : ∀ v ∈ items, CompactForm v) : CompactForm (.list items) := by
  refine .of_text (emit_compactList h) ?_ fun limits level hdigits hdepth => ?_
  · have htexts : ∀ s ∈ items.map compactText, IsPrintable s :=
      forall_mem_map.mpr fun v hv => (h v hv).printable
    have hbrackets : IsPrintable "[" ∧ IsPrintable "]" := by decide
    exact hbrackets.1.append ((isPrintable_join (by decide) htexts).append hbrackets.2)
  · rw [depth] at hdepth
    rw [joined, joinedItems_eq]
    refine readsTo_list_ok (compact.spacing 0) (by omega) fun v hv => ?_
    have := depth_le_itemsDepth hv
    exact (h v hv).reads limits (level + 1) hdigits (by omega)

/-! ### Dictionaries -/

def compactEntry (f : Text × Value) : Text := quoteText true f.1 ++ ": " ++ compactText f.2

theorem emitEntries_compact (h : ∀ f ∈ fields, CompactForm f.2) (level : Nat)
    (around : List Nat) (first : Bool) : (emitEntries compact level around first (named fields)).fault = none ∧
      (emitEntries compact level around first (named fields)).text =
        opened (if first then [] else ", ") ", " (fields.map compactEntry) := by
  induction fields generalizing first with
  | nil =>
    rw [named, map_nil, emitEntries]
    exact ⟨rfl, rfl⟩
  | cons f fields ih =>
    obtain ⟨hf, hfields⟩ := forall_mem_cons.mp h
    have hbefore : (if first then Emission.nothing else Emission.piece (compact.separator level)).fault = none ∧
        (if first then Emission.nothing else Emission.piece (compact.separator level)).text
          = if first then [] else ", " := by
      cases first <;> exact ⟨rfl, rfl⟩
    have hkey : (Emission.mk [quoteText compact.ascii f.1, ": "] none).fault = none ∧
        (Emission.mk [quoteText compact.ascii f.1, ": "] none).text = quoteText true f.1 ++ ": " :=
      ⟨rfl, by simp [Emission.text, compact]⟩
    have hall := Emission.andThen_ok hbefore (Emission.andThen_ok hkey
      (Emission.andThen_ok (hf.written level around) (ih hfields false)))
    rw [named, map_cons, emitEntries, ← named, map_cons, ← opened_cons, compactEntry]
    refine ⟨hall.1, hall.2.trans ?_⟩
    simp

theorem depth_le_entriesDepth {f : Text × Value} (h : f ∈ fields) : depth f.2 ≤ entriesDepth (named fields) := by
  induction fields with
  | nil => cases h
  | cons g fields ih =>
    rw [named, map_cons, entriesDepth, ← named]
    rcases mem_cons.mp h with rfl | h
    · exact Nat.le_max_left _ _
    · exact (ih h).trans (Nat.le_max_right _ _)

theorem emit_compactDict (h : ∀ f ∈ fields, CompactForm f.2) (level : Nat)
    (around : List Nat) : (emit compact level around (.dict (named fields))).fault = none ∧
      (emit compact level around (.dict (named fields))).text
        = (compact.spacing 0).object (fields.map compactEntry) := by
  cases fields with
  | nil =>
    rw [named, map_nil, emit]
    exact ⟨rfl, rfl⟩
  | cons f fields =>
    have hentries := emitEntries_compact h (level + 1) around true
    rw [named, map_cons] at hentries ⊢
    rw [emit, ← opened_object 0 (by simp)]
    · exact Emission.andThen_ok ⟨rfl, compact.openDict_text level⟩
        (Emission.andThen_ok hentries ⟨rfl, compact.close_text level "\x7d"⟩)
    all_goals exact cons_ne_nil _ _

theorem compactForm_dict (h : ∀ f ∈ fields, CompactForm f.2) : CompactForm (.dict (named fields)) := by
  refine .of_text (emit_compactDict h) ?_ fun limits level hdigits hdepth => ?_
  · have htexts : ∀ s ∈ fields.map compactEntry, IsPrintable s :=
      forall_mem_map.mpr fun f hf =>
        ((isPrintable_quoteText f.1).append (by decide)).append (h f hf).printable
    have hbraces : IsPrintable "\x7b" ∧ IsPrintable "\x7d" := by decide
    exact hbraces.1.append ((isPrintable_join (by decide) htexts).append hbraces.2)
  · rw [depth] at hdepth
    rw [joined, joinedEntries_named, named, map_map]
    refine readsTo_object_ok (compact.spacing 0) (by omega) fun f hf => ?_
    have := depth_le_entriesDepth hf
    exact ⟨quoteText true f.1, joinHalves f.1, _, _, by simp [compactEntry, Text.ofString]; rfl, quotedReads_ascii f.1,
      (h f hf).reads limits (level + 1) hdigits (by omega), rfl⟩

/-! ### What can be written -/

theorem MadeOf.compactForm (h : MadeOf Short text v) : CompactForm v := by
  induction h with
  | null => exact compactForm_word (by simp [words]) rfl (by decide) rfl
  | bool b =>
    cases b with
    | true => exact compactForm_word (by simp [words]) rfl (by decide) rfl
    | false => exact compactForm_word (by simp [words]) rfl (by decide) rfl
  | int h => exact compactForm_int h
  | str => exact compactForm_str _
  | list _ ih => exact compactForm_list ih
  | dict _ _ _ ih => exact compactForm_dict ih

theorem emitItems_fault_mem {before : Text}
    (h : (emitItems layout level around before items).fault = none) :
    ∀ v ∈ items, (emit layout level around v).fault = none := by
  induction items generalizing before with
  | nil => exact nofun
  | cons x items ih =>
    obtain ⟨hx, hitems, -⟩ := emitItems_cons h
    exact forall_mem_cons.mpr ⟨hx, ih hitems⟩

theorem emitEntries_fault_mem {first : Bool} (h : (emitEntries layout level around first (named fields)).fault = none) :
    ∀ f ∈ fields, (emit layout level around f.2).fault = none := by
  induction fields generalizing first with
  | nil => exact nofun
  | cons g fields ih =>
    rw [named, map_cons, ← named] at h
    obtain ⟨-, -, hg, hfields, -⟩ := emitEntries_cons h
    exact forall_mem_cons.mpr ⟨hg, ih hfields⟩

theorem MadeOf.short (h : MadeOf (fun _ => True) text v)
    (hfault : (emit layout level around v).fault = none) : MadeOf Short text v := by
  induction h generalizing level with
  | null => exact .null
  | bool b => exact .bool b
  | int =>
    rw [emit] at hfault
    · split at hfault
      · next s hs => exact .int (integerText_iff.mp ⟨s, Option.some.inj hs⟩)
      · cases hfault
      · cases hfault
    all_goals simp
  | str h => exact .str h
  | @list items _ ih =>
    cases items with
    | nil => exact .list (forall_mem_nil _)
    | cons x items =>
      rw [emit] at hfault
      · have hitems := emitItems_fault_mem (Emission.andThen_fault hfault).1
        exact .list fun v hv => ih v hv (hitems v hv)
      · exact cons_ne_nil x items
  | @dict fields hnodup hkeys _ ih =>
    cases fields with
    | nil => exact .dict hnodup hkeys (forall_mem_nil _)
    | cons f fields =>
      have hentries : (emitEntries layout (level + 1) around true (named (f :: fields))).fault = none := by
        rw [named, map_cons] at hfault ⊢
        rw [emit] at hfault
        · exact (Emission.andThen_fault (Emission.andThen_fault hfault).2).1
        all_goals exact cons_ne_nil _ _
      exact .dict hnodup hkeys fun g hg => ih g hg (emitEntries_fault_mem hentries g hg)

/-- **A value can be written** just if its whole numbers are short. -/
theorem write_compact_iff (h : MadeOf (fun _ => True) text v) :
    (∃ s, write compact v = .ok s) ↔ MadeOf Short text v := by
  unfold write
  simp only
  constructor
  · rintro ⟨s, hs⟩
    split at hs
    · cases hs
    · next hfault => exact h.short hfault
  · intro hshort
    rw [(hshort.compactForm.written 0 []).1]
    exact ⟨_, rfl⟩

end PluginKit.Json
