import PluginKit.Proofs.Json.Reread

/-!
# JSON texts that were cut off

A value is written piece by piece, and the writing may end before the last piece: because a part of the value has no
JSON form, or because a piece cannot be put into a file. What was written until then is never a JSON text
(`read_cut`). The reader comes to its end inside a collection, where it expects another element, a comma or the
closing bracket.
-/

namespace PluginKit.Json

open List

variable {α : Type} {reader : Nat → Place → Reading (List α × Place)} {bracket : CodePoint}
  {reads : Text → Except String α → Prop} {t z s q key colon : Text} {texts : List Text} {level : Nat} {v : Value}
  {around : List Nat}

/-! ### Texts on which a reader fails -/

/-- A reader fails on a text with nothing behind it. -/
def Fails {α : Type} (slack : Nat) (reader : Nat → Place → Reading α) (s : Text) : Prop :=
  ∀ off fuel, 2 * s.length + slack ≤ fuel → ∃ e, reader fuel ⟨off, s⟩ = .error e

/-- What stands behind a part of a collection if no more than blanks was written, or a comma and parts of which one
is cut off. -/
inductive CutOff {α : Type} (reader : Nat → Place → Reading α) : Text → Prop where
  | blanks {z : Text} (h : IsBlanks z) : CutOff reader z
  | comma {gap rest : Text} (hgap : IsBlanks gap) (hopens : Opens (isJsonBlank · = false) rest) (h : Fails 1 reader rest) :
    CutOff reader (.scalar ',' :: (gap ++ rest))

theorem CutOff.stops (h : CutOff reader t) : Stops t := by
  cases h with
  | blanks h =>
    rw [← append_nil t]
    exact stops_blanks h stops_nil
  | comma => exact stops_comma _

theorem skipBlanks_blanks (h : IsBlanks z) (off : Nat) : (⟨off, z⟩ : Place).skipBlanks = ⟨off + z.length, []⟩ := by
  have hskip := skipBlanks_opens h (opens_nil _) off
  rw [append_nil] at hskip
  exact hskip

section
variable {limits : Limits} {n : Nat}

theorem fails_nil : Fails 0 (readValue limits n) [] := by
  intro off fuel _
  cases fuel with
  | zero => exact ⟨_, rfl⟩
  | succ fuel => exact ⟨_, rfl⟩

/-! ### Lists -/

theorem Fails.items (h : Fails 0 (readValue limits n) s) : Fails 1 (readItems limits n) s := by
  intro off fuel hf
  obtain ⟨fuel, rfl⟩ : ∃ k, fuel = k + 1 := ⟨fuel - 1, by omega⟩
  obtain ⟨e, he⟩ := h off fuel (by omega)
  refine ⟨e, ?_⟩
  rw [readItems, he]
  rfl

theorem ReadsParts.fails_of_cutOff (hp : ReadsParts reader bracket reads) {r : Except String α} (hs : reads s r)
    (ht : CutOff reader t) : Fails 1 reader (s ++ t) := by
  intro off fuel hf
  rw [length_append] at hf
  obtain ⟨fuel, rfl⟩ : ∃ k, fuel = k + 1 := ⟨fuel - 1, by omega⟩
  rw [hp.part off hs ht.stops (by omega)]
  cases r with
  | error c => exact ⟨_, rfl⟩
  | ok v =>
    simp only [settle, Except.bind]
    cases ht with
    | blanks hz =>
      rw [skipBlanks_blanks hz]
      exact ⟨_, rfl⟩
    | @comma gap rest hgap hopens hrest =>
      obtain ⟨c, cs, rfl, -⟩ := hp.opens hs
      simp only [length_cons, length_append] at hf
      obtain ⟨e, he⟩ := hrest (off + (c :: cs).length + 1 + gap.length) fuel (by omega)
      rw [skipBlanks_of_opens ⟨_, _, rfl, rfl⟩, hp.readMore_comma, skipBlanks_opens hgap hopens, he]
      exact ⟨e, rfl⟩

theorem Collects.fails {opening : CodePoint} {name : String} {f : List α → Value}
    (hc : Collects limits n opening bracket name reader f) {b : Text} (hb : IsBlanks b)
    (hopens : Opens (BeginsPart bracket) s) (h : Fails 1 reader s) :
    Fails 0 (readValue limits n) (opening :: (b ++ s)) := by
  intro off fuel hf
  rw [length_cons, length_append] at hf
  obtain ⟨fuel, rfl⟩ : ∃ k, fuel = k + 1 := ⟨fuel - 1, by omega⟩
  obtain ⟨e, he⟩ := h (off + 1 + b.length) fuel (by omega)
  rw [hc hb (hopens.mono fun _ h => h.1), if_neg (fun hs => (hopens _ hs).2 rfl : s.head? ≠ some bracket), he]
  split
  · exact ⟨_, rfl⟩
  · exact ⟨e, rfl⟩

/-! ### Objects -/

theorem fails_entries_nil : Fails 1 (readEntries limits n) [] := by
  intro off fuel _
  cases fuel with
  | zero => exact ⟨_, rfl⟩
  | succ fuel => exact ⟨_, rfl⟩

theorem fails_key (hq : QuotedReads q key) : Fails 1 (readEntries limits n) q := by
  intro off fuel hf
  obtain ⟨⟨body, rfl⟩, hreads⟩ := hq
  obtain ⟨fuel, rfl⟩ : ∃ k, fuel = k + 1 := ⟨fuel - 1, by omega⟩
  have hkey := hreads off []
  rw [append_nil] at hkey
  refine ⟨.malformed ⟨.colon, off + List.length (CodePoint.scalar '"' :: body)⟩, ?_⟩
  rw [readEntries]
  simp only [hkey, bind, Except.bind]
  rfl

theorem fails_entry (hq : QuotedReads q key) (hcolon : IsBlanks colon)
    (hopens : Opens (isJsonBlank · = false) s) (h : Fails 0 (readValue limits n) s) :
    Fails 1 (readEntries limits n) (q ++ .scalar ':' :: (colon ++ s)) := by
  intro off fuel hf
  rw [length_append, length_cons, length_append] at hf
  obtain ⟨fuel, rfl⟩ : ∃ k, fuel = k + 1 := ⟨fuel - 1, by omega⟩
  obtain ⟨e, he⟩ := h (off + q.length + 1 + colon.length) fuel (by omega)
  refine ⟨e, ?_⟩
  rw [readEntries_key hq hcolon hopens, he]
  rfl

/-- Parts between commas with nothing but blanks behind the last. -/
theorem ReadsParts.fails_joined (hp : ReadsParts reader bracket reads) {gap : Text} (hgap : IsBlanks gap)
    (hz : IsBlanks z) (h : ∀ s ∈ texts, ∃ r, reads s r) :
    texts ≠ [] → Fails 1 reader (Text.join (.scalar ',' :: gap) texts ++ z) := by
  induction texts with
  | nil => exact fun hne => absurd rfl hne
  | cons s texts ih =>
    intro _
    obtain ⟨⟨r, hs⟩, htexts⟩ := forall_mem_cons.mp h
    cases texts with
    | nil => exact hp.fails_of_cutOff hs (.blanks hz)
    | cons s' texts =>
      have hrest := ih htexts (cons_ne_nil _ _)
      obtain ⟨r', hs'⟩ := htexts s' mem_cons_self
      have happ : Text.join (.scalar ',' :: gap) (s :: s' :: texts) ++ z
          = s ++ .scalar ',' :: (gap ++ (Text.join (.scalar ',' :: gap) (s' :: texts) ++ z)) := by
        simp [join_cons_cons]
      rw [happ]
      exact hp.fails_of_cutOff hs (.comma hgap (opens_of (join_opens (hp.opens_blankless hs') _ _ _)) hrest)

end

/-! ### Writings that are not completed -/

/-- These pieces were written when the writing ended before its time. -/
def Emission.IsCut (e : Emission) (kept : List Text) : Prop := kept <+: e.pieces ∧ (kept = e.pieces → e.fault ≠ none)

namespace Emission.IsCut

variable {a b : Emission} {kept : List Text}

theorem andThen (h : (a.andThen b).IsCut kept) :
    a.IsCut kept ∨ a.fault = none ∧ ∃ rest, kept = a.pieces ++ rest ∧ b.IsCut rest := by
  obtain ⟨hkept, hwhole⟩ := h
  cases ha : a.fault with
  | some f =>
    have hsame : a.andThen b = a := by simp only [Emission.andThen, ha]
    rw [hsame] at hkept hwhole
    exact .inl ⟨hkept, hwhole⟩
  | none =>
    have hboth : a.andThen b = ⟨a.pieces ++ b.pieces, b.fault⟩ := by simp only [Emission.andThen, ha]
    rw [hboth] at hkept hwhole
    rcases prefix_or_prefix_of_prefix hkept (prefix_append a.pieces b.pieces) with hin | ⟨rest, rfl⟩
    · by_cases hall : kept = a.pieces
      · refine .inr ⟨rfl, [], by rw [hall, append_nil], nil_prefix, fun hnil => ?_⟩
        exact hwhole (by rw [hall, ← hnil, append_nil])
      · exact .inl ⟨hin, fun h => absurd h hall⟩
    · have hrest : rest <+: b.pieces := (prefix_append_right_inj a.pieces).mp hkept
      exact .inr ⟨rfl, rest, rfl, hrest, fun h => hwhole (by rw [h])⟩

theorem piece (h : (Emission.piece s).IsCut kept) : kept = [] := by
  obtain ⟨hkept, hwhole⟩ := h
  rcases prefix_cons_iff.mp hkept with hnil | ⟨rest, rfl, hrest⟩
  · exact hnil
  · cases prefix_nil.mp hrest
    exact absurd rfl (hwhole rfl)

theorem fail {f : Fault} (h : (Emission.fail f).IsCut kept) : kept = [] := prefix_nil.mp h.1

theorem not_nothing : ¬ Emission.nothing.IsCut kept := fun h => h.2 (prefix_nil.mp h.1) rfl

/-- Of two pieces that were to be written, at most the first was. -/
theorem two (h : (Emission.mk [s, t] none).IsCut kept) : kept = [] ∨ kept = [s] := by
  obtain ⟨hkept, hwhole⟩ := h
  rcases prefix_cons_iff.mp hkept with hnil | ⟨rest, rfl, hrest⟩
  · exact .inl hnil
  · rcases prefix_cons_iff.mp hrest with rfl | ⟨rest', rfl, hrest'⟩
    · exact .inr rfl
    · cases prefix_nil.mp hrest'
      exact absurd rfl (hwhole rfl)

end Emission.IsCut

section
variable {layout : Layout} {limits : Limits}

theorem isBlanks_of_isCut_close {kept : List Text} {closing : Text}
    (h : (layout.close level closing).IsCut kept) : IsBlanks kept.flatten := by
  unfold Layout.close at h
  split at h
  · rcases h.two with rfl | rfl
    · exact isBlanks_nil
    · rw [flatten_singleton]
      exact isBlanks_newline layout level
  · rw [h.piece]
    exact isBlanks_nil

/-- A writing of elements or entries was cut off: nothing of it is there, or what opens it and parts on which the
reader fails. -/
def PartsCut {α : Type} (reader : Nat → Place → Reading α) (bracket : CodePoint) (before s : Text) : Prop :=
  s = [] ∨ ∃ parts, s = before ++ parts ∧ Fails 1 reader parts ∧ Opens (BeginsPart bracket) parts

theorem PartsCut.cutOff (h : PartsCut reader bracket (layout.separator (level + 1)) s) : CutOff reader s := by
  rcases h with rfl | ⟨parts, rfl, hfails, hopens⟩
  · exact .blanks isBlanks_nil
  · rw [layout.separator_eq]
    exact .comma (layout.spacing level).gap_blank (hopens.mono fun _ hc => hc.1) hfails

/-- The parts of a collection, or only the closing bracket, are not all there. -/
theorem ReadsParts.partsCut (hp : ReadsParts reader bracket reads) {n depth : Nat} {before closing : Text} {v : α}
    {values : List α} {parts : Emission} {kept : List Text}
    (hall : parts.fault = none → ∃ texts, AllReread reads limits n depth texts (v :: values) ∧
      parts.text = opened before (layout.separator (level + 1)) texts)
    (hparts : ∀ kept, parts.IsCut kept → PartsCut reader bracket before kept.flatten)
    (h : (parts.andThen (layout.close level closing)).IsCut kept) : PartsCut reader bracket before kept.flatten := by
  rcases h.andThen with hcut | ⟨hfault, rest, rfl, hclose⟩
  · exact hparts kept hcut
  · obtain ⟨texts, hall, htext⟩ := hall hfault
    have hexists := hall.exists_reads
    have hblank := isBlanks_of_isCut_close hclose
    rw [flatten_append, ← Emission.text, htext, layout.separator_eq]
    cases texts with
    | nil => exact absurd rfl hall.ne_nil
    | cons s texts =>
      obtain ⟨r, hr⟩ := hexists s mem_cons_self
      refine .inr ⟨Text.join (.scalar ',' :: (layout.spacing level).gap) (s :: texts) ++ rest.flatten, ?_, ?_, ?_⟩
      · rw [opened, append_assoc]
      · exact hp.fails_joined (layout.spacing level).gap_blank hblank hexists hall.ne_nil
      · exact opens_of (join_opens (hp.opens hr) _ _ _)

theorem fails_items (hl : layout.ascii = false) (hd : Text.maxDigits ≤ limits.digits) {x : Value} {items : List Value}
    {n : Nat} {kept : List Text}
    (hitems : ∀ kept, (emitItems layout (level + 1) around ("[" ++ layout.newline (level + 1)) (x :: items)).IsCut kept →
      PartsCut (readItems limits (n + 1)) ']' ("[" ++ layout.newline (level + 1)) kept.flatten)
    (h : ((emitItems layout (level + 1) around ("[" ++ layout.newline (level + 1)) (x :: items)).andThen
      (layout.close level "]")).IsCut kept) :
    Fails 0 (readValue limits n) kept.flatten ∧ Opens (BeginsPart ']') kept.flatten := by
  have hall := @allReread_emitItems layout limits hl hd (x :: items) (level + 1) around
    ("[" ++ layout.newline (level + 1)) (n + 1)
  rw [rereadItems] at hall
  rcases readsParts_items.partsCut hall hitems h with hnil | ⟨parts, hparts, hfails, hopens⟩
  · rw [hnil]
    exact ⟨fails_nil, opens_nil _⟩
  · rw [hparts]
    exact ⟨collects_list.fails (isBlanks_newline layout (level + 1)) hopens hfails, opens_of ⟨_, _, rfl, rfl, by decide⟩⟩

theorem fails_entries (hl : layout.ascii = false) (hd : Text.maxDigits ≤ limits.digits) {e : Value × Value}
    {entries : List (Value × Value)} {n : Nat} {kept : List Text}
    (hentries : ∀ kept, (emitEntries layout (level + 1) around true (e :: entries)).IsCut kept →
      PartsCut (readEntries limits (n + 1)) '\x7d' [] kept.flatten)
    (h : ((layout.openDict level).andThen ((emitEntries layout (level + 1) around true (e :: entries)).andThen
      (layout.close level "\x7d"))).IsCut kept) :
    Fails 0 (readValue limits n) kept.flatten ∧ Opens (BeginsPart ']') kept.flatten := by
  have hobject : ∀ b parts, IsBlanks b → Fails 1 (readEntries limits (n + 1)) parts → Opens (BeginsPart '\x7d') parts →
      Fails 0 (readValue limits n) (.scalar '\x7b' :: (b ++ parts)) ∧
        Opens (BeginsPart ']') (.scalar '\x7b' :: (b ++ parts)) := by
    intro b parts hb hfails hopens
    exact ⟨collects_object.fails hb hopens hfails, opens_of ⟨_, _, rfl, rfl, by decide⟩⟩
  rcases h.andThen with hcut | ⟨-, after, rfl, hafter⟩
  · have hopening : kept = [] ∨ kept = ["\x7b"] := by
      unfold Layout.openDict at hcut
      split at hcut
      · exact hcut.two
      · exact .inl hcut.piece
    rcases hopening with rfl | rfl
    · exact ⟨fails_nil, opens_nil _⟩
    · exact hobject [] [] isBlanks_nil fails_entries_nil (opens_nil _)
  · have hall := @allReread_emitEntries layout limits hl hd (e :: entries) (level + 1) around true (n + 1)
    obtain ⟨k, v⟩ := e
    rw [rereadEntries, if_pos rfl] at hall
    rw [flatten_append, ← Emission.text, layout.openDict_text]
    rcases (readsParts_entries isBlanks_space).partsCut hall hentries hafter with hnil | ⟨parts, hparts, hfails, hopens⟩
    · rw [hnil]
      exact hobject _ _ (isBlanks_newline layout (level + 1)) fails_entries_nil (opens_nil _)
    · rw [hparts]
      exact hobject _ _ (isBlanks_newline layout (level + 1)) hfails hopens

mutual

/-- **A value that was not written to its end** cannot be read. -/
theorem fails_emit (hl : layout.ascii = false) (hd : Text.maxDigits ≤ limits.digits) :
    ∀ (v : Value) (level : Nat) (around : List Nat) (n : Nat) (kept : List Text),
      (emit layout level around v).IsCut kept →
      Fails 0 (readValue limits n) kept.flatten ∧ Opens (BeginsPart ']') kept.flatten
  | .list [] | .tuple [] | .dict [] => by
    intro level around n kept h
    rw [emit] at h
    rw [h.piece]
    exact ⟨fails_nil, opens_nil _⟩
  | .list (x :: items) | .tuple (x :: items) => by
    intro level around n kept h
    rw [emit] at h
    · exact fails_items hl hd (fun kept => fails_emitItems hl hd (x :: items) (level) around _ (n + 1) kept) h
    · exact cons_ne_nil x items
  | .dict (e :: entries) => by
    intro level around n kept h
    rw [emit] at h
    · exact fails_entries hl hd (fun kept => fails_emitEntries hl hd (e :: entries) level around true (n + 1) kept) h
    all_goals exact cons_ne_nil e entries
  | .loop mark body => by
    intro level around n kept h
    rw [emit] at h
    split at h
    · rw [h.fail]
      exact ⟨fails_nil, opens_nil _⟩
    · exact fails_emit hl hd body level (mark :: around) n kept h
  | .again mark => by
    intro level around n kept h
    rw [emit] at h
    rw [h.fail]
    exact ⟨fails_nil, opens_nil _⟩
  | .null | .bool _ | .int _ | .float _ | .str _ | .bytes _ | .date _ | .datetime _ | .set _ => by
    intro level around n kept h
    have hnil : kept = [] := by
      rw [emit] at h
      · split at h
        · exact h.piece
        · exact h.fail
        · exact h.fail
      all_goals simp
    rw [hnil]
    exact ⟨fails_nil, opens_nil _⟩

theorem fails_emitItems (hl : layout.ascii = false) (hd : Text.maxDigits ≤ limits.digits) :
    ∀ (items : List Value) (level : Nat) (around : List Nat) (before : Text) (n : Nat) (kept : List Text),
      (emitItems layout (level + 1) around before items).IsCut kept →
      PartsCut (readItems limits n) ']' before kept.flatten
  | [] => by
    intro level around before n kept h
    rw [emitItems] at h
    exact absurd h Emission.IsCut.not_nothing
  | x :: rest => by
    intro level around before n kept h
    rw [emitItems_eq] at h
    rcases h.andThen with hcut | ⟨hfault, more, rfl, hmore⟩
    · unfold emitItem at hcut
      split at hcut
      · exact .inl (by rw [hcut.piece]; rfl)
      · exact .inl (by rw [hcut.fail]; rfl)
      · rcases hcut.andThen with hnone | ⟨-, inner, rfl, hx⟩
        · exact .inl (by rw [hnone.piece]; rfl)
        · obtain ⟨hfails, hopens⟩ := fails_emit hl hd x (level + 1) around n inner hx
          exact .inr ⟨inner.flatten, rfl, hfails.items, hopens⟩
    · obtain ⟨hx, htext⟩ := emitItem_ok hfault
      obtain ⟨⟨r, hr, -, -⟩, -⟩ := @rereads_emit layout limits hl hd x (level + 1) around n hx
      have hcut := fails_emitItems hl hd rest level around (layout.separator (level + 1)) n more hmore
      refine .inr ⟨(emit layout (level + 1) around x).text ++ more.flatten, ?_,
        readsParts_items.fails_of_cutOff hr hcut.cutOff, opens_of (join_opens hr.opens [] [] _)⟩
      rw [flatten_append, ← append_assoc, ← htext]
      rfl

theorem fails_emitEntries (hl : layout.ascii = false) (hd : Text.maxDigits ≤ limits.digits) :
    ∀ (entries : List (Value × Value)) (level : Nat) (around : List Nat) (first : Bool) (n : Nat) (kept : List Text),
      (emitEntries layout (level + 1) around first entries).IsCut kept →
      PartsCut (readEntries limits n) '\x7d' (if first then [] else layout.separator (level + 1)) kept.flatten
  | [] => by
    intro level around first n kept h
    rw [emitEntries] at h
    exact absurd h Emission.IsCut.not_nothing
  | (k, v) :: rest => by
    intro level around first n kept h
    rw [emitEntries] at h
    cases hkey : keyText k with
    | error f =>
      simp only [hkey] at h
      exact .inl (by rw [h.fail]; rfl)
    | ok key =>
      simp only [hkey] at h
      rcases h.andThen with hcut | ⟨-, after, rfl, hentry⟩
      · cases first with
        | true => exact absurd hcut Emission.IsCut.not_nothing
        | false => exact .inl (by rw [hcut.piece]; rfl)
      rw [flatten_append, ← Emission.text, Emission.first_text]
      refine .inr ⟨after.flatten, rfl, ?_⟩
      rw [hl] at hentry
      have hquoted := quotedReads_quoteText key
      rcases hentry.andThen with hcut | ⟨-, value, rfl, hvalue⟩
      · rcases hcut.two with rfl | rfl
        · exact ⟨fails_entries_nil, opens_nil _⟩
        · rw [flatten_singleton]
          exact ⟨fails_key hquoted, opens_of ⟨_, _, rfl, rfl, by decide⟩⟩
      have happ : ([quoteText false key, ": "] ++ value).flatten
          = quoteText false key ++ .scalar ':' :: ((" " : Text) ++ value.flatten) := by
        simp [Text.ofString]
      rw [happ]
      refine ⟨?_, opens_of ⟨_, _, rfl, rfl, by decide⟩⟩
      rcases hvalue.andThen with hcut | ⟨hv, more, rfl, hmore⟩
      · obtain ⟨hfails, hopens⟩ := fails_emit hl hd v (level + 1) around n value hcut
        exact fails_entry hquoted isBlanks_space (hopens.mono fun _ hc => hc.1) hfails
      · obtain ⟨⟨r, hr, -, -⟩, -⟩ := @rereads_emit layout limits hl hd v (level + 1) around n hv
        have hcut := fails_emitEntries hl hd rest level around false n more hmore
        have hcomplete : EntryReadsTo " " limits n
            (quoteText false key ++ .scalar ':' :: ((" " : Text) ++ (emit layout (level + 1) around v).text))
            (r.map fun x => (.str key, x)) := ⟨_, key, _, r, rfl, hquoted, hr, rfl⟩
        have hfails := (readsParts_entries isBlanks_space).fails_of_cutOff hcomplete hcut.cutOff
        simpa [Emission.text] using hfails

end

theorem writesOnly_isPlain (hl : layout.ascii = false) :
    WritesOnly (fun c => 32 ≤ c.toNat ∨ c = '\n') (fun _ => True) layout where
  marks := isPlain_marks
  scalar := by
    intro v s h
    rw [hl] at h
    exact (@rereads_scalar v s usualLimits (Nat.le_refl _) h 0).plain
  scalarFault _ := trivial
  keyFault _ := trivial
  circular := trivial
  notSerializable _ := trivial

/-- No control characters but line feeds are written, even if a fault ends the writing. -/
theorem isPlain_emit_text (hl : layout.ascii = false) (v : Value) (level : Nat) (around : List Nat) :
    IsPlain (emit layout level around v).text :=
  (meets_emit (writesOnly_isPlain hl) v level around).1

theorem Emission.IsCut.isPlain (hl : layout.ascii = false) {kept : List Text}
    (h : (emit layout level around v).IsCut kept) : IsPlain kept.flatten := by
  obtain ⟨rest, hrest⟩ := h.1
  have hplain := isPlain_emit_text hl v level around
  rw [Emission.text, ← hrest, flatten_append] at hplain
  exact fun c hc => hplain c (mem_append_left _ hc)

/-- **A JSON text that was cut off** between two pieces is not read as anything. -/
theorem read_cut (hl : layout.ascii = false) {kept : List Text} (h : (emit layout 0 [] v).IsCut kept) :
    ∃ e, read kept.flatten = .error e := by
  obtain ⟨hfails, hopens⟩ := @fails_emit layout usualLimits hl (Nat.le_refl _) v 0 [] 0 kept h
  have hskip : (⟨0, kept.flatten⟩ : Place).skipBlanks = ⟨0, kept.flatten⟩ :=
    skipBlanks_opens isBlanks_nil (hopens.mono fun _ hc => hc.1) 0
  obtain ⟨e, he⟩ := hfails 0 (2 * kept.flatten.length + 2) (by omega)
  rw [read, readWithin]
  split
  · exact ⟨_, rfl⟩
  · simp only [hskip, he]
    exact ⟨e, rfl⟩

end

end PluginKit.Json
