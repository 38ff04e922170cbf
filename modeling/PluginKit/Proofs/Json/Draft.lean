import PluginKit.Proofs.Json.Cut
import PluginKit.Proofs.Text.Encodable

/-!
# Drafts of JSON texts

A draft is a JSON text in which the texts between the quotes are still open: they come from given ones by some change,
such as filling in placeholders. Whatever the change does, as long as it leaves the marks of JSON alone
(`KeepsMarks`) and what it makes can stand between quotes, the changed text reads as the changed value. Drafts of lists
and objects are made from drafts of their parts.
-/

namespace PluginKit.Json

open List
open Value (named)

/-! ### Values that can be written -/

def Writable (v : Value) : Prop :=
  ∀ level around, (emit pretty level around v).fault = none ∧ Encodable (emit pretty level around v).text

theorem encodable_escapeChar {c : CodePoint} (h : c.isSurrogate = false) : Encodable (escapeChar false c) := by
  unfold escapeChar
  simp only [Bool.false_and, Bool.false_eq_true, if_false]
  split_ifs
  all_goals first
    | exact Encodable.cons h encodable_nil
    | exact Encodable.cons rfl (Encodable.cons rfl encodable_nil)
    | exact Encodable.cons rfl (Encodable.cons rfl (encodable_map_scalar _))

theorem encodable_quoteText {s : Text} (h : Encodable s) : Encodable (quoteText false s) := by
  have hbody : Encodable (s.flatMap (escapeChar false)) := by
    intro c hc
    obtain ⟨d, hd, hc⟩ := mem_flatMap.mp hc
    exact encodable_escapeChar (h d hd) c hc
  have hquote : Encodable "\"" := encodable_ofString "\""
  exact (hquote.append hbody).append hquote

theorem writable_scalar {v : Value} {s : Text} (h : scalarText? false v = some (.ok s)) (hs : Encodable s) :
    Writable v := by
  intro level around
  have hemit : emit pretty level around v = .piece s := @emit_scalar v s pretty h level around
  rw [hemit, Emission.piece_text]
  exact ⟨rfl, hs⟩

theorem writable_str {s : Text} (h : Encodable s) : Writable (.str s) := by
  have hscalar : scalarText? false (.str s) = some (.ok (quoteText false s)) := rfl
  exact writable_scalar hscalar (encodable_quoteText h)

theorem writable_iff {v : Value} :
    Writable v ↔ ∀ level around, (emit pretty level around v).Meets (·.isSurrogate = false) fun _ => False := by
  refine forall₂_congr fun level around => ⟨fun h => Emission.meets_of_text h.2 h.1, fun h => ⟨?_, h.1⟩⟩
  exact Option.eq_none_iff_forall_not_mem.mpr h.2

theorem encodable_marks : Encodable marks := encodable_ofString _

theorem writable_list {items : List Value} (h : ∀ v ∈ items, Writable v) : Writable (.list items) :=
  writable_iff.mpr fun _ _ => meets_list encodable_marks fun v hv => writable_iff.mp (h v hv) _ _

theorem writable_dict {fields : List (Text × Value)} (h : ∀ f ∈ fields, Encodable f.1 ∧ Writable f.2) :
    Writable (.dict (named fields)) := by
  refine writable_iff.mpr fun level around => meets_dict encodable_marks (forall_mem_map.mpr fun f hf => ?_)
  refine ⟨⟨fun key hkey => ?_, nofun⟩, writable_iff.mp (h f hf).2 _ _⟩
  cases hkey
  exact encodable_quoteText (h f hf).1

/-! ### Changes that leave the marks of JSON alone -/

/-- A change of texts that looks for something beginning with two braces and without quotes. -/
structure KeepsMarks (φ : Text → Text) : Prop where
  cons : ∀ c s, c ≠ .scalar '\x7b' → φ (c :: s) = c :: φ s
  brace : ∀ c s, c ≠ .scalar '\x7b' → φ (.scalar '\x7b' :: c :: s) = .scalar '\x7b' :: φ (c :: s)
  /-- The two sides of a quote are changed each for itself. -/
  quote : ∀ s t, φ (s ++ .scalar '"' :: t) = φ s ++ .scalar '"' :: φ t

namespace KeepsMarks

variable {φ ψ : Text → Text}

theorem id : KeepsMarks fun s => s := ⟨fun _ _ _ => rfl, fun _ _ _ => rfl, fun _ _ => rfl⟩

theorem comp (hφ : KeepsMarks φ) (hψ : KeepsMarks ψ) : KeepsMarks fun s => ψ (φ s) where
  cons c s hc := by
    show ψ (φ (c :: s)) = c :: ψ (φ s)
    rw [hφ.cons c s hc, hψ.cons c _ hc]
  brace c s hc := by
    show ψ (φ (.scalar '\x7b' :: c :: s)) = .scalar '\x7b' :: ψ (φ (c :: s))
    rw [hφ.brace c s hc, hφ.cons c s hc, hψ.brace c _ hc]
  quote s t := by
    show ψ (φ (s ++ .scalar '"' :: t)) = ψ (φ s) ++ .scalar '"' :: ψ (φ t)
    rw [hφ.quote, hψ.quote]

theorem nil (h : KeepsMarks φ) : φ [] = [] := by
  -- A quote alone is a quote with nothing on either side.
  have hquote := h.quote [] []
  rw [nil_append, h.cons _ _ (by decide)] at hquote
  have hlength := congrArg List.length hquote
  simp only [length_cons, length_append] at hlength
  exact length_eq_zero_iff.mp (by omega)

theorem append (h : KeepsMarks φ) {s : Text} (hs : ∀ c ∈ s, c ≠ .scalar '\x7b') (t : Text) : φ (s ++ t) = s ++ φ t := by
  induction s with
  | nil => rfl
  | cons c s ih =>
    obtain ⟨hc, hs⟩ := forall_mem_cons.mp hs
    rw [cons_append, h.cons c _ hc, ih hs, cons_append]

theorem blanks (h : KeepsMarks φ) {b : Text} (hb : IsBlanks b) (t : Text) : φ (b ++ t) = b ++ φ t := by
  refine h.append ?_ t
  rintro c hc rfl
  exact absurd (hb _ hc) (by decide)

end KeepsMarks

/-! ### Drafts -/

def between (body : Text) : Text := .scalar '"' :: (body ++ [.scalar '"'])

/-- The text stands for itself between quotes. -/
def IsVerbatim (s : Text) : Prop := ∀ c ∈ s, 32 ≤ c.toNat ∧ c ≠ .scalar '"' ∧ c ≠ .scalar '\\'

instance : DecidablePred IsVerbatim := fun s =>
  inferInstanceAs (Decidable (∀ c ∈ s, 32 ≤ c.toNat ∧ c ≠ .scalar '"' ∧ c ≠ .scalar '\\'))

theorem escapeChar_of_verbatim {c : CodePoint} (h : 32 ≤ c.toNat ∧ c ≠ .scalar '"' ∧ c ≠ .scalar '\\') :
    escapeChar false c = [c] := by
  obtain ⟨hc, hquote, hslash⟩ := h
  have hcontrol : ∀ d : CodePoint, d.toNat < 32 → c ≠ d := by
    rintro d hd rfl
    omega
  simp [escapeChar, hquote, hslash, hcontrol _ (show CodePoint.toNat (.scalar '\n') < 32 by decide),
    hcontrol _ (show CodePoint.toNat (.scalar '\r') < 32 by decide),
    hcontrol _ (show CodePoint.toNat (.scalar '\t') < 32 by decide),
    hcontrol _ (show CodePoint.toNat (.scalar '\x08') < 32 by decide),
    hcontrol _ (show CodePoint.toNat (.scalar '\x0c') < 32 by decide), Nat.not_lt.mpr hc]

theorem quotedReads_verbatim {s : Text} (h : IsVerbatim s) : QuotedReads (between s) s := by
  have hbody : s.flatMap (escapeChar false) = s := by
    induction s with
    | nil => rfl
    | cons c s ih =>
      obtain ⟨hc, hs⟩ := forall_mem_cons.mp h
      rw [flatMap_cons, escapeChar_of_verbatim hc, ih hs]
      rfl
  have hquoted : quoteText false s = between s := by
    rw [quoteText, hbody]
    rfl
  rw [← hquoted]
  exact quotedReads_quoteText s

theorem ReadsTo.read_append {s b : Text} {v : Value} (h : ReadsTo usualLimits 0 s (.ok v)) (hb : IsBlanks b) :
    read (s ++ b) = .ok v := by
  have hstops : Stops b := by
    have hstops := stops_blanks hb stops_nil
    rwa [append_nil] at hstops
  obtain ⟨c, cs, hs, hc, -⟩ := h.opens
  have hskip : (⟨0, s ++ b⟩ : Place).skipBlanks = ⟨0, s ++ b⟩ :=
    skipBlanks_opens isBlanks_nil (opens_of ⟨c, cs ++ b, by rw [hs]; rfl, hc⟩) 0
  have hread := h.reads 0 b (2 * (s ++ b).length + 2) hstops (by rw [length_append]; omega)
  have hmark : (s ++ b).head? ≠ some (.scalar '\ufeff') := by
    have hne := h.head?_ne_mark
    rw [hs] at hne ⊢
    exact hne
  rw [read, Json.readWithin, if_neg (by simpa using hmark)]
  simp only [hskip, hread, settle]
  show (if (Place.skipBlanks _).rest.isEmpty then (pure v : Reading Value) else _) = .ok v
  rw [skipBlanks_blanks hb]
  rfl

/-- A JSON text whose texts come from given ones by some change. -/
structure Draft where
  /-- The texts between the quotes before the change. -/
  bodies : List Text
  height : Nat
  render : (Text → Text) → Text
  /-- The value, if this is what the texts between the quotes stand for. -/
  value : (Text → Text) → Value
  fills : ∀ {φ}, KeepsMarks φ → ∀ t, φ (render (fun s => s) ++ t) = render φ ++ φ t
  reads : ∀ {φ ψ}, (∀ b ∈ bodies, QuotedReads (between (φ b)) (ψ b)) → ∀ {level : Nat},
    level + height ≤ usualLimits.depth → ReadsTo usualLimits level (render φ) (.ok (value ψ))
  writes : ∀ {ψ}, (∀ b ∈ bodies, Encodable (ψ b)) → Writable (value ψ)

namespace Draft

def text (body : Text) : Draft where
  bodies := [body]
  height := 0
  render φ := between (φ body)
  value ψ := .str (ψ body)
  fills h t := by
    rw [between, cons_append, append_assoc, singleton_append, h.cons _ _ (by decide), h.quote, between,
      cons_append, append_assoc, singleton_append]
  reads h _ _ := readsTo_text (h body (mem_singleton_self body))
  writes h := writable_str (h body (mem_singleton_self body))

def scalar (s : Text) (v : Value) (hs : ∀ c ∈ s, c ≠ .scalar '\x7b')
    (hreads : ∀ level, ReadsTo usualLimits level s (.ok v)) (hv : Writable v) : Draft where
  bodies := []
  height := 0
  render _ := s
  value _ := v
  fills h t := h.append hs t
  reads _ level _ := hreads level
  writes _ := hv

def heights : List Draft → Nat
  | [] => 0
  | d :: rest => max d.height (heights rest)

theorem height_le_heights {parts : List Draft} {d : Draft} (h : d ∈ parts) : d.height ≤ heights parts := by
  induction parts with
  | nil => cases h
  | cons e parts ih =>
    rw [heights]
    rcases mem_cons.mp h with rfl | h
    · omega
    · have := ih h
      omega

theorem fills_join {φ : Text → Text} (hφ : KeepsMarks φ) {sep : Text} (hsep : ∀ c ∈ sep, c ≠ .scalar '\x7b')
    {texts changed : List Text} (h : List.Forall₂ (fun s s' => ∀ t, φ (s ++ t) = s' ++ φ t) texts changed) (t : Text) :
    φ (Text.join sep texts ++ t) = Text.join sep changed ++ φ t := by
  induction h with
  | nil => rfl
  | @cons s s' texts changed hs hrest ih =>
    cases hrest with
    | nil => exact hs t
    | cons hs' hrest =>
      rw [join_cons_cons, join_cons_cons, append_assoc, append_assoc, hs, hφ.append hsep, ih,
        append_assoc, append_assoc]

theorem comma_ne_brace {gap : Text} (h : IsBlanks gap) : ∀ c ∈ (.scalar ',' :: gap : Text), c ≠ .scalar '\x7b' := by
  refine forall_mem_cons.mpr ⟨by decide, ?_⟩
  rintro c hc rfl
  exact absurd (h _ hc) (by decide)

/-- The parts of a collection are changed one by one, with the blanks between them. -/
theorem fills_body {φ : Text → Text} (hφ : KeepsMarks φ) (sp : Spacing) {texts changed : List Text} {bracket : CodePoint}
    (hbracket : bracket ≠ .scalar '\x7b') (h : List.Forall₂ (fun s s' => ∀ t, φ (s ++ t) = s' ++ φ t) texts changed)
    (t : Text) : φ (sp.body texts bracket ++ t) = sp.body changed bracket ++ φ t := by
  rw [Spacing.body_append, Spacing.body_append, hφ.blanks sp.opening_blank,
    fills_join hφ (comma_ne_brace sp.gap_blank) h, hφ.blanks sp.closing_blank, hφ.cons _ _ hbracket]

theorem forall₂_map {α β γ : Type} {r : β → γ → Prop} {f : α → β} {g : α → γ} {xs : List α}
    (h : ∀ x ∈ xs, r (f x) (g x)) : List.Forall₂ r (xs.map f) (xs.map g) := by
  rw [forall₂_map_left_iff, forall₂_map_right_iff]
  exact forall₂_same.mpr h

theorem fills_list (sp : Spacing) (items : List Draft) {φ : Text → Text} (hφ : KeepsMarks φ) (t : Text) :
    φ (sp.list (items.map fun d => d.render fun s => s) ++ t) = sp.list (items.map fun d => d.render φ) ++ φ t := by
  rw [Spacing.list, cons_append, hφ.cons _ _ (by decide),
    fills_body hφ sp (by decide) (forall₂_map fun d _ => d.fills hφ)]
  rfl

theorem reads_list (sp : Spacing) (items : List Draft) {φ ψ : Text → Text}
    (h : ∀ b ∈ items.flatMap bodies, QuotedReads (between (φ b)) (ψ b)) {level : Nat}
    (hle : level + (1 + heights items) ≤ usualLimits.depth) :
    ReadsTo usualLimits level (sp.list (items.map fun d => d.render φ)) (.ok (.list (items.map fun d => d.value ψ))) := by
  refine readsTo_list_ok sp (by omega) fun d hd => d.reads (fun b hb => h b (mem_flatMap.mpr ⟨d, hd, hb⟩)) ?_
  have := height_le_heights hd
  omega

theorem writes_list (items : List Draft) {ψ : Text → Text} (h : ∀ b ∈ items.flatMap bodies, Encodable (ψ b)) :
    Writable (.list (items.map fun d => d.value ψ)) := by
  refine writable_list ?_
  intro v hv
  obtain ⟨d, hd, rfl⟩ := mem_map.mp hv
  exact d.writes fun b hb => h b (mem_flatMap.mpr ⟨d, hd, hb⟩)

def list (sp : Spacing) (items : List Draft) : Draft where
  bodies := items.flatMap bodies
  height := 1 + heights items
  render φ := sp.list (items.map fun d => d.render φ)
  value ψ := .list (items.map fun d => d.value ψ)
  fills := fills_list sp items
  reads := reads_list sp items
  writes := writes_list items

structure IsKey (key : Text) : Prop where
  verbatim : IsVerbatim key
  encodable : Encodable key
  braceless : ∀ c ∈ key, c ≠ .scalar '\x7b'

instance : DecidablePred IsKey := fun key =>
  decidable_of_iff (IsVerbatim key ∧ (∀ c ∈ key, c.isSurrogate = false) ∧ ∀ c ∈ key, c ≠ .scalar '\x7b')
    ⟨fun h => ⟨h.1, h.2.1, h.2.2⟩, fun h => ⟨h.verbatim, h.encodable, h.braceless⟩⟩

/-- Different names that can stand as the keys of an object in a draft. -/
structure AreKeys (keys : List Text) : Prop where
  isKey : ∀ key ∈ keys, IsKey key
  nodup : keys.Nodup

instance : DecidablePred AreKeys := fun keys =>
  decidable_of_iff ((∀ key ∈ keys, IsKey key) ∧ keys.Nodup) ⟨fun h => ⟨h.1, h.2⟩, fun h => ⟨h.isKey, h.nodup⟩⟩

def entry (colon key s : Text) : Text := between key ++ .scalar ':' :: (colon ++ s)

theorem fills_entry {φ : Text → Text} (hφ : KeepsMarks φ) {colon key : Text} (hcolon : IsBlanks colon) (hkey : IsKey key)
    (d : Draft) (t : Text) : φ (entry colon key (d.render fun s => s) ++ t) = entry colon key (d.render φ) ++ φ t := by
  have hquoted : ∀ c ∈ between key, c ≠ .scalar '\x7b' :=
    forall_mem_cons.mpr ⟨by decide, forall_mem_append.mpr ⟨hkey.braceless, forall_mem_singleton.mpr (by decide)⟩⟩
  have happ (s t : Text) : entry colon key s ++ t = between key ++ .scalar ':' :: (colon ++ (s ++ t)) := by
    simp [entry]
  rw [happ, happ, hφ.append hquoted, hφ.cons _ _ (by decide), hφ.blanks hcolon, d.fills hφ]

section
variable (sp : Spacing) (hopening : sp.opening ≠ []) (fields : List (Text × Draft)) (hkeys : AreKeys (fields.map (·.1)))
include hkeys

theorem writes_object {ψ : Text → Text} (h : ∀ b ∈ fields.flatMap fun f => f.2.bodies, Encodable (ψ b)) :
    Writable (.dict (named (fields.map fun f => (f.1, f.2.value ψ)))) := by
  refine writable_dict ?_
  intro g hg
  obtain ⟨f, hf, rfl⟩ := mem_map.mp hg
  exact ⟨(hkeys.isKey _ (mem_map_of_mem hf)).encodable, f.2.writes fun b hb => h b (mem_flatMap.mpr ⟨f, hf, hb⟩)⟩

theorem reads_object {φ ψ : Text → Text}
    (h : ∀ b ∈ fields.flatMap fun f => f.2.bodies, QuotedReads (between (φ b)) (ψ b)) {level : Nat}
    (hle : level + (1 + heights (fields.map (·.2))) ≤ usualLimits.depth) :
    ReadsTo usualLimits level (sp.object (fields.map fun f => entry sp.colon f.1 (f.2.render φ)))
      (.ok (.dict (named (fields.map fun f => (f.1, f.2.value ψ))))) := by
  have hnamed := Value.insertAll_nil_named (fields.map fun f => (f.1, f.2.value ψ)) (by rw [map_map]; exact hkeys.nodup)
  rw [← hnamed, named, map_map]
  refine readsTo_object_ok sp (by omega) fun f hf => ⟨_, f.1, _, _, rfl,
    quotedReads_verbatim (hkeys.isKey _ (mem_map_of_mem hf)).verbatim,
    f.2.reads (fun b hb => h b (mem_flatMap.mpr ⟨f, hf, hb⟩)) ?_, rfl⟩
  have : f.2.height ≤ heights (fields.map (·.2)) := height_le_heights (mem_map_of_mem hf)
  omega

include hopening

theorem fills_object {φ : Text → Text} (hφ : KeepsMarks φ) (t : Text) :
    φ (sp.object (fields.map fun f => entry sp.colon f.1 (f.2.render fun s => s)) ++ t)
      = sp.object (fields.map fun f => entry sp.colon f.1 (f.2.render φ)) ++ φ t := by
  have hbody := @fills_body φ hφ sp _ _ (.scalar '\x7d') (by decide)
    (forall₂_map fun f hf => fills_entry hφ sp.colon_blank (hkeys.isKey _ (mem_map_of_mem hf)) f.2) t
  obtain ⟨c, cs, hc⟩ := exists_cons_of_ne_nil hopening
  have hblank : c ≠ .scalar '\x7b' := by
    rintro rfl
    exact absurd (sp.opening_blank _ (by rw [hc]; exact mem_cons_self)) (by decide)
  rw [Spacing.object, cons_append, Spacing.object, cons_append, ← hbody, Spacing.body_append, hc,
    cons_append, hφ.brace _ _ hblank]

end

/-- An object. Something has to stand between the brace and the first key, lest the brace meet a placeholder. -/
def object (sp : Spacing) (hopening : sp.opening ≠ []) (fields : List (Text × Draft))
    (hkeys : AreKeys (fields.map (·.1))) : Draft where
  bodies := fields.flatMap fun f => f.2.bodies
  height := 1 + heights (fields.map (·.2))
  render φ := sp.object (fields.map fun f => entry sp.colon f.1 (f.2.render φ))
  value ψ := .dict (named (fields.map fun f => (f.1, f.2.value ψ)))
  fills := fills_object sp hopening fields hkeys
  reads := reads_object sp fields hkeys
  writes := writes_object fields hkeys

/-- **A filled draft** reads as the filled value, with blanks behind it. -/
theorem read_fill (d : Draft) {φ : Text → Text} (hφ : KeepsMarks φ) (hbodies : ∀ b ∈ d.bodies, IsVerbatim (φ b))
    (hheight : d.height ≤ usualLimits.depth) {b : Text} (hb : IsBlanks b) :
    read (φ (d.render (fun s => s) ++ b)) = .ok (d.value φ) := by
  have hend : φ b = b := by
    have hall := hφ.blanks hb []
    rwa [hφ.nil, append_nil] at hall
  have hreads : ReadsTo usualLimits 0 (d.render φ) (.ok (d.value φ)) :=
    d.reads (fun b hb => quotedReads_verbatim (hbodies b hb)) (by omega)
  rw [d.fills hφ, hend]
  exact hreads.read_append hb

end Draft

end PluginKit.Json
