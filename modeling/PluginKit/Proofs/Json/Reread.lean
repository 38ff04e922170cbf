import PluginKit.Proofs.Json.Emissions
import PluginKit.Proofs.Json.Scalars

/-!
# Reading back what was written

A value that was written as JSON with all its characters as they are reads back as `reread`: lists and tuples as lists,
keys as texts, and a number with a fraction as the number that its digits stand for. Only the depth of the value decides
whether its text can be read (`rereads_emit`).
-/

namespace PluginKit.Json

open List

variable {a b : Emission} {v x : Value} {s before : Text} {around : List Nat} {texts : List Text} {n : Nat}

/-! ### What a value reads back as -/

def writtenKey (k : Value) : Text :=
  match keyText k with
  | .ok s => s
  | .error _ => []

def rereadFloat (x : Float) : Value :=
  match read (numberStyle.write x) with
  | .ok v => v
  | .error _ => .null

mutual

/-- A value as it reads back. -/
def reread : Value → Value
  | .list items => .list (rereadItems items)
  | .tuple items => .list (rereadItems items)
  | .dict entries => .dict (Value.insertAll [] (rereadEntries entries))
  | .loop _ body => reread body
  | .float x => rereadFloat x
  | v => v

def rereadItems : List Value → List Value
  | [] => []
  | v :: rest => reread v :: rereadItems rest

def rereadEntries : List (Value × Value) → List (Value × Value)
  | [] => []
  | (k, v) :: rest => (.str (writtenKey k), reread v) :: rereadEntries rest

end

mutual

/-- The number of collections that stand inside each other in the JSON text of a value. -/
def depth : Value → Nat
  | .list items => 1 + itemsDepth items
  | .tuple items => 1 + itemsDepth items
  | .dict entries => 1 + entriesDepth entries
  | .loop _ body => depth body
  | _ => 0

def itemsDepth : List Value → Nat
  | [] => 0
  | v :: rest => max (depth v) (itemsDepth rest)

def entriesDepth : List (Value × Value) → Nat
  | [] => 0
  | (_, v) :: rest => max (depth v) (entriesDepth rest)

end

theorem rereadEntries_named (fields : List (Text × Value)) :
    rereadEntries (Value.named fields) = Value.named (fields.map fun f => (f.1, reread f.2)) := by
  induction fields with
  | nil => rfl
  | cons f fields ih =>
    rw [Value.named, map_cons, rereadEntries, ← Value.named, ih]
    rfl

theorem reread_named {fields : List (Text × Value)} (h : (fields.map (·.1)).Nodup) :
    reread (.dict (Value.named fields)) = .dict (Value.named (fields.map fun f => (f.1, reread f.2))) := by
  have hnodup : ((fields.map fun f => (f.1, reread f.2)).map (·.1)).Nodup := by
    rw [map_map]
    exact h
  rw [reread, rereadEntries_named, Value.insertAll_nil_named _ hnodup]

section
variable {layout : Layout}

/-! ### Layouts -/

theorem isBlanks_newline (layout : Layout) (level : Nat) : IsBlanks (layout.newline level) := by
  unfold Layout.newline
  split
  · refine forall_mem_cons.mpr ⟨rfl, fun c hc => ?_⟩
    cases eq_of_mem_replicate hc
    rfl
  · exact isBlanks_nil

def Layout.spacing (layout : Layout) (level : Nat) : Spacing where
  opening := layout.newline (level + 1)
  gap := (layout.separator (level + 1)).drop 1
  closing := layout.newline level
  colon := " "
  opening_blank := isBlanks_newline layout (level + 1)
  gap_blank := by
    unfold Layout.separator
    split
    · exact isBlanks_newline layout (level + 1)
    · exact forall_mem_singleton.mpr rfl
  closing_blank := isBlanks_newline layout level
  colon_blank := forall_mem_singleton.mpr rfl

theorem Layout.separator_eq (layout : Layout) (level : Nat) :
    layout.separator (level + 1) = .scalar ',' :: (layout.spacing level).gap := by
  show layout.separator (level + 1) = .scalar ',' :: (layout.separator (level + 1)).drop 1
  unfold Layout.separator
  cases layout.indent <;> rfl

theorem isPlain_marks : IsPlain marks := by decide

theorem isPlain_newline (layout : Layout) (level : Nat) : IsPlain (layout.newline level) :=
  fun c hc => isPlain_marks c (newline_subset_marks layout level hc)

theorem isPlain_separator (layout : Layout) (level : Nat) : IsPlain (layout.separator level) :=
  fun c hc => isPlain_marks c (separator_subset_marks layout level hc)

def opened (before sep : Text) : List Text → Text
  | [] => []
  | s :: texts => before ++ Text.join sep (s :: texts)

theorem opened_cons (before sep s : Text) (texts : List Text) :
    before ++ s ++ opened sep sep texts = opened before sep (s :: texts) := by
  cases texts with
  | nil => simp [opened, Text.join]
  | cons s' texts => simp [opened, join_cons_cons]

theorem isPlain_body {level : Nat} {bracket : CodePoint} (h : ∀ s ∈ texts, IsPlain s)
    (hb : 32 ≤ bracket.toNat) : IsPlain ((layout.spacing level).body texts bracket) := by
  have hsep : IsPlain (.scalar ',' :: (layout.spacing level).gap) := by
    rw [← layout.separator_eq]
    exact isPlain_separator layout (level + 1)
  exact (isPlain_newline layout (level + 1)).append ((isPlain_join hsep h).append
    ((isPlain_newline layout level).append (isPlain_nil.cons hb)))

/-! ### Values -/

variable {limits : Limits}

/-- The text of one value: it is read exactly if its depth can be reached, and then as the value. -/
structure Rereads (limits : Limits) (level : Nat) (s : Text) (depth : Nat) (v : Value) : Prop where
  reads : ∃ r, ReadsTo limits level s r ∧ (r.isOk = true ↔ depth = 0 ∨ level + depth ≤ limits.depth) ∧
    ∀ x, r = .ok x → x = v
  plain : IsPlain s

theorem rereads_of_ok {level : Nat} (h : ReadsTo limits level s (.ok v)) (hs : IsPlain s) :
    Rereads limits level s 0 v :=
  ⟨⟨_, h, iff_of_true rfl (.inl rfl), fun _ hx => (Except.ok.inj hx).symm⟩, hs⟩

theorem rereads_word {level : Nat} {w : Text} (h : (w, v) ∈ words) : Rereads limits level w 0 v :=
  rereads_of_ok (readsTo_word h) (isPlain_words _ h)

theorem rereadFloat_eq {x : Float} (h : ReadsTo usualLimits 0 (numberStyle.write x) (.ok v)) : rereadFloat x = v := by
  rw [rereadFloat, read, h.readWithin]
  rfl

theorem rereads_scalar (hd : Text.maxDigits ≤ limits.digits)
    (h : scalarText? false v = some (.ok s)) (level : Nat) : Rereads limits level s (depth v) (reread v) := by
  cases v with
  | list | tuple | dict | loop | again | bytes | date | datetime | set => cases h
  | null =>
    cases h
    exact rereads_word (v := .null) (by simp [words])
  | bool b =>
    cases b with
    | true =>
      cases h
      exact rereads_word (v := .bool true) (by simp [words])
    | false =>
      cases h
      exact rereads_word (v := .bool false) (by simp [words])
  | int n =>
    obtain ⟨rfl, hlen⟩ := integerText_ok (Option.some.inj h)
    have hread := @readsTo_number limits level _ (Numeral.wellFormed_ofInt n) fun _ => hlen.trans hd
    rw [Numeral.value_ofInt] at hread
    exact rereads_of_ok hread (Numeral.wellFormed_ofInt n).isPlain
  | float x =>
    cases h
    obtain ⟨v, hreads, hplain, -⟩ := readsTo_float x
    have heq : reread (.float x) = v := by
      rw [reread]
      exact rereadFloat_eq (hreads usualLimits (Nat.le_refl _) 0)
    rw [heq]
    exact rereads_of_ok (hreads limits hd level) hplain
  | str t =>
    cases h
    exact rereads_of_ok (readsTo_text (quotedReads_quoteText t)) (isPlain_quoteText t)

/-- Elements or entries that are read one after another. -/
structure AllReread {α : Type} (reads : Text → Except String α → Prop) (limits : Limits) (level depth : Nat)
    (texts : List Text) (values : List α) : Prop where
  reads : ∃ rs, List.Forall₂ reads texts rs ∧
    ((∀ r ∈ rs, r.isOk = true) ↔ depth = 0 ∨ level + depth ≤ limits.depth) ∧ ∀ xs, collect rs = .ok xs → xs = values
  plain : ∀ s ∈ texts, IsPlain s

section
variable {α : Type} {reads : Text → Except String α → Prop} {level : Nat}

theorem allReread_nil : AllReread reads limits level 0 [] [] :=
  ⟨⟨[], .nil, by simp, fun xs hxs => (Except.ok.inj hxs).symm⟩, nofun⟩

theorem AllReread.cons {r : Except String α} {depth depth' : Nat} {v : α} {values : List α}
    (hr : reads s r) (hok : r.isOk = true ↔ depth = 0 ∨ level + depth ≤ limits.depth) (hv : ∀ x, r = .ok x → x = v)
    (hs : IsPlain s) (h : AllReread reads limits level depth' texts values) :
    AllReread reads limits level (max depth depth') (s :: texts) (v :: values) := by
  obtain ⟨⟨rs, hrs, hall, hvalues⟩, hplain⟩ := h
  refine ⟨⟨r :: rs, .cons hr hrs, ?_, fun xs hxs => ?_⟩, forall_mem_cons.mpr ⟨hs, hplain⟩⟩
  · rw [forall_mem_cons, hok, hall]
    omega
  · cases r with
    | error c => cases hxs
    | ok x =>
      rw [collect_ok_cons] at hxs
      cases hc : collect rs with
      | error c =>
        rw [hc] at hxs
        cases hxs
      | ok ys =>
        rw [hc] at hxs
        cases hxs
        rw [hv x rfl, hvalues ys hc]

theorem AllReread.collection {depth : Nat} {values : List α}
    (h : AllReread reads limits (level + 1) depth texts values) (name : String) (f : List α → Value)
    (hread : ∀ rs, List.Forall₂ reads texts rs →
      ReadsTo limits level s (if limits.depth ≤ level then .error name else (collect rs).map f)) (hs : IsPlain s) :
    Rereads limits level s (1 + depth) (f values) := by
  obtain ⟨⟨rs, hrs, hall, hvalues⟩, -⟩ := h
  refine ⟨⟨_, hread rs hrs, isOk_collection name f hall, fun x hx => ?_⟩, hs⟩
  split at hx
  · cases hx
  · cases hc : collect rs with
    | error c =>
      rw [hc] at hx
      cases hx
    | ok xs =>
      rw [hc] at hx
      cases hx
      rw [hvalues xs hc]

end

theorem AllReread.ne_nil {α : Type} {reads : Text → Except String α → Prop} {depth : Nat}
    {v : α} {values : List α} (h : AllReread reads limits n depth texts (v :: values)) : texts ≠ [] := by
  rintro rfl
  obtain ⟨⟨rs, hrs, -, hvalues⟩, -⟩ := h
  cases hrs
  cases hvalues [] rfl

theorem AllReread.exists_reads {α : Type} {reads : Text → Except String α → Prop} {depth : Nat}
    {values : List α} (h : AllReread reads limits n depth texts values) : ∀ s ∈ texts, ∃ r, reads s r := by
  obtain ⟨⟨rs, hrs, -, -⟩, -⟩ := h
  intro s hs
  induction hrs with
  | nil => cases hs
  | @cons s' r texts rs hr hrest ih =>
    rcases mem_cons.mp hs with rfl | hs
    · exact ⟨r, hr⟩
    · exact ih hs

theorem rereads_list {depth : Nat} {values : List Value}
    (h : AllReread (ReadsTo limits (n + 1)) limits (n + 1) depth texts values) (sp : Spacing)
    (hs : IsPlain (sp.list texts)) : Rereads limits n (sp.list texts) (1 + depth) (.list values) :=
  h.collection "array" .list (fun _ hrs => readsTo_list sp hrs) hs

theorem rereads_object {depth : Nat} {values : List (Value × Value)} (sp : Spacing)
    (h : AllReread (EntryReadsTo sp.colon limits (n + 1)) limits (n + 1) depth texts values)
    (hs : IsPlain (sp.object texts)) :
    Rereads limits n (sp.object texts) (1 + depth) (.dict (Value.insertAll [] values)) :=
  h.collection "object" (fun entries => .dict (Value.insertAll [] entries)) (fun _ hrs => readsTo_object sp hrs) hs

theorem opened_list (level : Nat) (h : texts ≠ []) :
    opened ("[" ++ layout.newline (level + 1)) (layout.separator (level + 1)) texts ++
      (layout.newline level ++ "]") = (layout.spacing level).list texts := by
  cases texts with
  | nil => exact absurd rfl h
  | cons s texts =>
    rw [layout.separator_eq]
    simp [opened, Spacing.list, Spacing.body, Layout.spacing, Text.ofString]

theorem opened_object (level : Nat) (h : texts ≠ []) :
    .scalar '\x7b' :: layout.newline (level + 1) ++ (opened [] (layout.separator (level + 1)) texts ++
      (layout.newline level ++ "\x7d")) = (layout.spacing level).object texts := by
  cases texts with
  | nil => exact absurd rfl h
  | cons s texts =>
    rw [layout.separator_eq]
    simp [opened, Spacing.object, Spacing.body, Layout.spacing, Text.ofString]

theorem rereads_items {items : List Value} {level : Nat} {e : Emission}
    (he : e = (emitItems layout (level + 1) around ("[" ++ layout.newline (level + 1)) (x :: items)).andThen
      (layout.close level "]"))
    (hitems : (emitItems layout (level + 1) around ("[" ++ layout.newline (level + 1)) (x :: items)).fault = none →
      ∃ texts, AllReread (ReadsTo limits (n + 1)) limits (n + 1) (itemsDepth (x :: items)) texts
          (rereadItems (x :: items)) ∧
        (emitItems layout (level + 1) around ("[" ++ layout.newline (level + 1)) (x :: items)).text =
          opened ("[" ++ layout.newline (level + 1)) (layout.separator (level + 1)) texts)
    (h : e.fault = none) :
    Rereads limits n e.text (1 + itemsDepth (x :: items)) (.list (rereadItems (x :: items))) := by
  subst he
  obtain ⟨hfault, -⟩ := Emission.andThen_fault h
  obtain ⟨texts, hall, htext⟩ := hitems hfault
  rw [Emission.andThen_text hfault, htext, layout.close_text,
    opened_list level (by rw [rereadItems] at hall; exact hall.ne_nil)]
  exact rereads_list hall _ ((isPlain_body hall.plain (by decide)).cons (by decide))

theorem rereads_emitScalar (hl : layout.ascii = false) (hd : Text.maxDigits ≤ limits.digits)
    (h : ∃ s, scalarText? layout.ascii v = some (.ok s)) (level : Nat) (around : List Nat) (n : Nat) :
    Rereads limits n (emit layout level around v).text (depth v) (reread v) := by
  obtain ⟨s, hs⟩ := h
  rw [emit_scalar hs, Emission.piece_text]
  rw [hl] at hs
  exact rereads_scalar hd hs n

mutual

/-- **A written value reads back**, unless it is too deep. -/
theorem rereads_emit (hl : layout.ascii = false) (hd : Text.maxDigits ≤ limits.digits) :
    ∀ (v : Value) (level : Nat) (around : List Nat) (n : Nat), (emit layout level around v).fault = none →
      Rereads limits n (emit layout level around v).text (depth v) (reread v)
  | .list [] | .tuple [] => by
    intro level around n _
    exact rereads_list allReread_nil .tight (by decide)
  | .dict [] => by
    intro level around n _
    exact rereads_object .tight allReread_nil (by decide)
  | .list (x :: items) | .tuple (x :: items) => by
    intro level around n h
    rw [depth, reread]
    refine rereads_items ?_ (allReread_emitItems hl hd (x :: items) (level + 1) around _ (n + 1)) h
    rw [emit]
    exact cons_ne_nil x items
  | .dict (e :: entries) => by
    intro level around n h
    rw [emit] at h ⊢
    · rw [depth, reread]
      obtain ⟨-, hafter⟩ := Emission.andThen_fault h
      obtain ⟨hfault, -⟩ := Emission.andThen_fault hafter
      obtain ⟨texts, hall, htext⟩ := allReread_emitEntries hl hd (e :: entries) (level + 1) around true (n + 1) hfault
      have hne : texts ≠ [] := by
        obtain ⟨k, v⟩ := e
        rw [rereadEntries] at hall
        exact hall.ne_nil
      rw [Emission.andThen_text (layout.openDict_fault level), Emission.andThen_text hfault, htext, layout.close_text,
        layout.openDict_text, if_pos rfl, opened_object level hne]
      exact rereads_object _ hall ((isPlain_body hall.plain (by decide)).cons (by decide))
    all_goals exact cons_ne_nil e entries
  | .loop mark body => by
    intro level around n h
    rw [emit] at h ⊢
    split at h
    · cases h
    · next hmark =>
      rw [if_neg hmark, depth, reread]
      exact rereads_emit hl hd body level (mark :: around) n h
  | .again mark => by
    intro level around n h
    rw [emit] at h
    cases h
  | .null | .bool _ | .int _ | .float _ | .str _ | .bytes _ | .date _ | .datetime _ | .set _ => by
    intro level around n h
    refine rereads_emitScalar hl hd ?_ level around n
    rw [emit] at h
    · split at h
      · next s hs => exact ⟨s, hs⟩
      · cases h
      · cases h
    all_goals simp

theorem allReread_emitItems (hl : layout.ascii = false) (hd : Text.maxDigits ≤ limits.digits) :
    ∀ (items : List Value) (level : Nat) (around : List Nat) (before : Text) (n : Nat),
      (emitItems layout level around before items).fault = none →
      ∃ texts, AllReread (ReadsTo limits n) limits n (itemsDepth items) texts (rereadItems items) ∧
        (emitItems layout level around before items).text = opened before (layout.separator level) texts
  | [] => by
    intro level around before n _
    refine ⟨[], allReread_nil, ?_⟩
    rw [emitItems]
    rfl
  | x :: rest => by
    intro level around before n h
    obtain ⟨hx, hrest, htext⟩ := emitItems_cons h
    obtain ⟨⟨r, hr, hok, hv⟩, hplain⟩ := rereads_emit hl hd x level around n hx
    obtain ⟨texts, hall, hmore⟩ := allReread_emitItems hl hd rest level around (layout.separator level) n hrest
    refine ⟨(emit layout level around x).text :: texts, ?_, ?_⟩
    · rw [itemsDepth, rereadItems]
      exact hall.cons hr hok hv hplain
    · rw [htext, hmore, opened_cons]

theorem allReread_emitEntries (hl : layout.ascii = false) (hd : Text.maxDigits ≤ limits.digits) :
    ∀ (entries : List (Value × Value)) (level : Nat) (around : List Nat) (first : Bool) (n : Nat),
      (emitEntries layout level around first entries).fault = none →
      ∃ texts, AllReread (EntryReadsTo " " limits n) limits n (entriesDepth entries) texts (rereadEntries entries) ∧
        (emitEntries layout level around first entries).text =
          opened (if first then [] else layout.separator level) (layout.separator level) texts
  | [] => by
    intro level around first n _
    refine ⟨[], allReread_nil, ?_⟩
    rw [emitEntries]
    rfl
  | (k, v) :: rest => by
    intro level around first n h
    obtain ⟨key, hkey, hv, hrest, htext⟩ := emitEntries_cons h
    obtain ⟨⟨r, hr, hok, hvalue⟩, hplain⟩ := rereads_emit hl hd v level around n hv
    obtain ⟨texts, hall, hmore⟩ := allReread_emitEntries hl hd rest level around false n hrest
    rw [hl] at htext
    have hentry : EntryReadsTo " " limits n (quoteText false key ++ ": " ++ (emit layout level around v).text)
        (r.map fun x => (.str key, x)) :=
      ⟨quoteText false key, key, _, r, by simp [Text.ofString], quotedReads_quoteText key, hr, rfl⟩
    have hcolon : IsPlain ": " := (isPlain_nil.cons (by decide)).cons (by decide)
    refine ⟨(quoteText false key ++ ": " ++ (emit layout level around v).text) :: texts, ?_, ?_⟩
    · rw [entriesDepth, rereadEntries, writtenKey, hkey]
      refine hall.cons hentry (by rw [isOk_map]; exact hok) ?_ (((isPlain_quoteText key).append hcolon).append hplain)
      intro x hx
      cases r with
      | error c => cases hx
      | ok y =>
        cases hx
        rw [hvalue y rfl]
    · rw [htext, hmore, if_neg Bool.false_ne_true, opened_cons]

end

theorem read_emit (hl : layout.ascii = false) (h : (emit layout 0 [] v).fault = none) :
    (depth v ≤ usualLimits.depth → read (emit layout 0 [] v).text = .ok (reread v)) ∧
      (usualLimits.depth < depth v → ∃ collection, read (emit layout 0 [] v).text = tooDeep collection) := by
  obtain ⟨⟨r, hr, hok, hv⟩, -⟩ := @rereads_emit layout usualLimits hl (Nat.le_refl _) v 0 [] 0 h
  rw [read, hr.readWithin]
  refine ⟨fun hle => ?_, fun hlt => ?_⟩
  · have hread := hok.mpr (.inr (by omega))
    cases r with
    | error c => cases hread
    | ok x =>
      rw [hv x rfl]
      rfl
  · cases r with
    | error c => exact ⟨c, rfl⟩
    | ok x =>
      have := hok.mp rfl
      omega

end

end PluginKit.Json
