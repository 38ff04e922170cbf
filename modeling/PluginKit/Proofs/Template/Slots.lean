import PluginKit.Proofs.Template.Names

/-!
# Placeholders that are replaced at once

The placeholders of a template are replaced one after another, in a text that holds values already. If no value holds a
brace or is empty, and no placeholder begins inside another (`Flat`), then no value, alone or with what stands around it,
makes a new placeholder, and none hides one. So the outcome is that of replacing all placeholders in one pass
(`onePass_replaceEach`), whatever their order (`replaceEach_perm`), and no placeholder is left (`replaceEach_complete`).
-/

namespace PluginKit.Template

open List
open Text (replaceAll)
open Facts (placeholder)

def opening : Text := [.scalar '\x7b', .scalar '\x7b']

def closing : Text := [.scalar '\x7d', .scalar '\x7d']

def Braceless (s : Text) : Prop := CodePoint.scalar '\x7b' ∉ s ∧ CodePoint.scalar '\x7d' ∉ s

/-- No opening stands between an opening and the next closing. -/
def Flat (s : Text) : Prop := ∀ before inner after, s = before ++ (opening ++ (inner ++ (opening ++ after))) →
  ¬ closing <:+: inner → ¬ closing <:+: after

variable {w w' v s t x y : Text} {r : Text × Text} {rs : List (Text × Text)}

theorem placeholder_eq (w : Text) : placeholder w = opening ++ (w ++ closing) := by
  have hmarks : Text.ofString "\x7b\x7b" = opening ∧ Text.ofString "\x7d\x7d" = closing := by decide
  rw [placeholder, hmarks.1, hmarks.2, append_assoc]

theorem placeholder_cons (w : Text) : placeholder w = .scalar '\x7b' :: (.scalar '\x7b' :: (w ++ closing)) :=
  placeholder_eq w

theorem word_unique (hw : Braceless w) (hw' : Braceless w') (h : placeholder w <+: s) (h' : placeholder w' <+: s) :
    w = w' := by
  have hword {w x y : Text} (hw : Braceless w) (h : opening ++ (w ++ closing) ++ x = opening ++ y) :
      y.takeWhile (fun c => c != .scalar '\x7d') = w := by
    rw [append_assoc, append_cancel_left_eq] at h
    rw [← h, append_assoc, takeWhile_append_of_pos]
    · show w ++ List.takeWhile (fun c => c != .scalar '\x7d') (.scalar '\x7d' :: (.scalar '\x7d' :: x)) = w
      rw [takeWhile_cons_of_neg (by simp), append_nil]
    · intro c hc
      simp only [bne_iff_ne, ne_eq]
      rintro rfl
      exact hw.2 hc
  rw [placeholder_eq] at h h'
  obtain ⟨x, rfl⟩ := h
  obtain ⟨x', hx'⟩ := h'
  have hself : opening ++ (w ++ closing) ++ x = opening ++ (w ++ (closing ++ x)) := by
    rw [append_assoc, append_assoc]
  rw [← hword hw hself, ← hword hw' (hx'.trans hself)]

/-! ### Flat texts -/

theorem Flat.of_append (h : Flat (x ++ s)) : Flat s := by
  intro before inner after hs
  refine h (x ++ before) inner after ?_
  rw [hs, append_assoc]

theorem closing_inside (w : Text) : closing <:+: placeholder w := by
  rw [placeholder_eq]
  exact ⟨opening ++ w, [], by rw [append_nil, append_assoc]⟩

/-- In a flat text, no placeholder stands between an opening and the next closing. -/
theorem Flat.closed_before (h : Flat (x ++ (opening ++ (s ++ (placeholder w ++ y))))) : closing <:+: s := by
  by_contra hs
  rw [placeholder_eq, append_assoc] at h
  refine h x s (w ++ closing ++ y) rfl hs ⟨w, y, rfl⟩

theorem not_closed_before (hw : Braceless w) (h : s <+: w ++ closing) (hne : s ≠ w ++ closing) : ¬ closing <:+: s := by
  -- Of the two closing braces that there are, the second stands behind the text.
  obtain ⟨rest, hrest⟩ := h
  have hlast : CodePoint.scalar '\x7d' ∈ rest := by
    refine mem_of_getLast? ?_
    have hnil : rest ≠ [] := by
      rintro rfl
      exact hne (by rw [← hrest, append_nil])
    have hends : (s ++ rest).getLast? = (w ++ closing).getLast? := congrArg List.getLast? hrest
    rw [getLast?_append_of_ne_nil s hnil, getLast?_append_of_ne_nil w (by decide)] at hends
    exact hends
  have hcount := congrArg (List.count (CodePoint.scalar '\x7d')) hrest
  rw [count_append, count_append, count_eq_zero.mpr hw.2] at hcount
  intro hclosing
  have htwo : List.count (CodePoint.scalar '\x7d') closing ≤ List.count (CodePoint.scalar '\x7d') s :=
    hclosing.sublist.count_le _
  have hone := count_pos_iff.mpr hlast
  omega

/-! ### Replacing one placeholder -/

theorem replaceAll_placeholder (hw' : Braceless w') (hne : w ≠ w') (hw : Braceless w) (v s : Text) :
    replaceAll (placeholder w) v (placeholder w' ++ s) = placeholder w' ++ replaceAll (placeholder w) v s := by
  have hfirst : ¬ placeholder w <+: placeholder w' ++ s := fun h => hne (word_unique hw hw' h (prefix_append _ _))
  have hsecond : ¬ placeholder w <+: .scalar '\x7b' :: (w' ++ closing ++ s) := by
    rw [placeholder_cons, cons_prefix_cons]
    rintro ⟨-, hp⟩
    cases w' with
    | nil => exact absurd (cons_prefix_cons.mp hp).1 (by decide)
    | cons c w' =>
      have hc : CodePoint.scalar '\x7b' = c := (cons_prefix_cons.mp hp).1
      exact hw'.1 (hc ▸ mem_cons_self)
  have hrest : CodePoint.scalar '\x7b' ∉ w' ++ closing := by
    rw [mem_append, not_or]
    exact ⟨hw'.1, by decide⟩
  rw [placeholder_cons w', cons_append, cons_append] at hfirst ⊢
  rw [Text.replaceAll_cons hfirst, Text.replaceAll_cons hsecond, placeholder_cons w,
    Text.replaceAll_append_of_not_mem hrest]
  rfl

/-- An opening in the result comes from one in the text, where no placeholder was replaced. -/
theorem exists_opening (hv : Braceless v ∧ v ≠ []) (h : replaceAll (placeholder w) v s = x ++ (opening ++ y)) :
    ∃ a b, s = a ++ (opening ++ b) ∧ x = replaceAll (placeholder w) v a ∧ y = replaceAll (placeholder w) v b ∧
      ¬ placeholder w <+: opening ++ b := by
  rw [placeholder_cons] at h ⊢
  obtain ⟨a, b, rfl, rfl, hb, hnot⟩ := Text.exists_of_replaceAll_eq hv.1.1 h
  obtain ⟨a', b', rfl, ha', hb', -⟩ := Text.exists_of_replaceAll_eq (x := []) hv.1.1 hb.symm
  obtain rfl := Text.eq_nil_of_replaceAll_eq_nil hv.2 ha'.symm
  exact ⟨a, b', rfl, rfl, hb', hnot⟩

/-- A placeholder in the result is one in the text, and another than the replaced one. -/
theorem infix_of_infix_replaceAll (hs : Flat s) (hw' : Braceless w') (hv : Braceless v ∧ v ≠ [])
    (h : placeholder w' <:+: replaceAll (placeholder w) v s) : placeholder w' <:+: s ∧ w' ≠ w := by
  obtain ⟨x, y, hxy⟩ := h
  rw [placeholder_eq w', append_assoc, append_assoc] at hxy
  obtain ⟨a, b, rfl, -, hb, hnot⟩ := exists_opening hv hxy.symm
  have hpre : w' ++ closing <+: replaceAll (placeholder w) v b := hb ▸ prefix_append _ _
  rw [placeholder_cons w] at hpre
  rcases Text.prefix_of_prefix_replaceAll hpre with ⟨rest, rfl⟩ | ⟨u, rest, rfl, hu, hne⟩
  · rw [← append_assoc opening, ← placeholder_eq] at hnot ⊢
    refine ⟨⟨a, rest, by rw [append_assoc]⟩, ?_⟩
    rintro rfl
    exact hnot (prefix_append _ _)
  · rw [← placeholder_cons w] at hs
    exact absurd hs.closed_before (not_closed_before hw' hu hne)

/-- A placeholder that begins the result behind a character begins the text there. -/
theorem prefix_of_prefix_cons {c : CodePoint} (hs : Flat (c :: s)) (hw' : Braceless w') (hv : Braceless v ∧ v ≠ [])
    (h : placeholder w' <+: c :: replaceAll (placeholder w) v s) : placeholder w' <+: c :: s := by
  rw [placeholder_cons w', cons_prefix_cons] at h
  obtain ⟨rfl, y, hy⟩ := h
  rw [placeholder_cons w, cons_append] at hy
  obtain ⟨a, b, rfl, ha, hb, -⟩ := Text.exists_of_replaceAll_eq (x := []) hv.1.1 hy.symm
  obtain rfl := Text.eq_nil_of_replaceAll_eq_nil hv.2 ha.symm
  have hpre : w' ++ closing <+: replaceAll (placeholder w) v b := by
    rw [placeholder_cons w, ← hb]
    exact prefix_append _ _
  rw [placeholder_cons w] at hpre
  rcases Text.prefix_of_prefix_replaceAll hpre with ⟨rest, rfl⟩ | ⟨u, rest, rfl, hu, hne⟩
  · rw [placeholder_cons w']
    exact ⟨rest, rfl⟩
  · rw [← placeholder_cons w] at hs
    exact absurd (Flat.closed_before (x := []) hs) (not_closed_before hw' hu hne)

/-- **Replacing a placeholder** keeps a text flat. -/
theorem Flat.replaceAll (hs : Flat s) (hv : Braceless v ∧ v ≠ []) : Flat (replaceAll (placeholder w) v s) := by
  intro before inner after h hinner hafter
  obtain ⟨a, b, rfl, -, hb, -⟩ := exists_opening hv h
  obtain ⟨b, c, rfl, rfl, rfl, -⟩ := exists_opening hv hb.symm
  by_cases hold : placeholder w <:+: b
  · -- The first placeholder that was replaced between the two openings.
    rw [placeholder_cons] at hold
    obtain ⟨u, rest, rfl, hreplace⟩ := Text.exists_first hold v
    rw [← placeholder_cons] at hs
    have hu : closing <:+: u := by
      refine Flat.closed_before (x := a) (w := w) (y := rest ++ (opening ++ c)) ?_
      simpa only [append_assoc] using hs
    rw [placeholder_cons, hreplace] at hinner
    exact hinner (hu.trans (prefix_append u _).isInfix)
  · have hkept : Text.replaceAll (placeholder w) v b = b := by
      rw [placeholder_cons] at hold ⊢
      exact Text.replaceAll_of_absent hold v
    rw [hkept] at hinner
    refine hs a b c rfl hinner ?_
    by_cases hlast : placeholder w <:+: c
    · exact (closing_inside w).trans hlast
    · rw [placeholder_cons] at hlast hafter
      rw [Text.replaceAll_of_absent hlast] at hafter
      exact hafter

/-! ### Replacing all placeholders at once -/

/-- All placeholders of a table are replaced in one pass: what stands at the front of the text is a placeholder, which is
replaced by its value, or a character where none begins, which stays. -/
inductive OnePass (rs : List (Text × Text)) : Text → Text → Prop
  | nil : OnePass rs [] []
  | slot {r : Text × Text} {s t : Text} (hr : r ∈ rs) (h : OnePass rs s t) : OnePass rs (placeholder r.1 ++ s) (r.2 ++ t)
  | char {c : CodePoint} {s t : Text} (hc : ∀ r ∈ rs, ¬ placeholder r.1 <+: c :: s) (h : OnePass rs s t) :
      OnePass rs (c :: s) (c :: t)

/-- A table of placeholders and their values: the words differ, words and values have no braces, and no value is empty. -/
structure IsTable (rs : List (Text × Text)) : Prop where
  nodup : (rs.map Prod.fst).Nodup
  words : ∀ r ∈ rs, Braceless r.1
  values : ∀ r ∈ rs, Braceless r.2 ∧ r.2 ≠ []

theorem IsTable.tail (h : IsTable (r :: rs)) : IsTable rs where
  nodup := (nodup_cons.mp h.nodup).2
  words := (forall_mem_cons.mp h.words).2
  values := (forall_mem_cons.mp h.values).2

theorem IsTable.perm {rs' : List (Text × Text)} (h : IsTable rs) (hperm : rs'.Perm rs) : IsTable rs' where
  nodup := (hperm.map Prod.fst).nodup_iff.mpr h.nodup
  words r hr := h.words r (hperm.mem_iff.mp hr)
  values r hr := h.values r (hperm.mem_iff.mp hr)

/-- Two placeholders of a table that begin one text are the same entry. -/
theorem IsTable.eq_of_append {r' : Text × Text} (h : IsTable rs) (hr : r ∈ rs) (hr' : r' ∈ rs)
    (heq : placeholder r.1 ++ s = placeholder r'.1 ++ t) : r = r' ∧ s = t := by
  have hword : r.1 = r'.1 :=
    word_unique (h.words r hr) (h.words r' hr') (prefix_append _ s) (heq ▸ prefix_append _ t)
  obtain rfl := inj_on_of_nodup_map h.nodup hr hr' hword
  exact ⟨rfl, append_cancel_left heq⟩

/-- **The outcome of one pass** is unique. -/
theorem OnePass.unique {t' : Text} (hrs : IsTable rs) (h : OnePass rs s t) (h' : OnePass rs s t') : t = t' := by
  induction h generalizing t' with
  | nil =>
    generalize hs : ([] : Text) = s at h'
    cases h' with
    | nil => rfl
    | slot hr _ => cases hs
    | char _ _ => cases hs
  | @slot r s t hr _ ih =>
    generalize hs : placeholder r.1 ++ s = s' at h'
    cases h' with
    | nil => cases hs
    | slot hr' h' =>
      obtain ⟨rfl, rfl⟩ := hrs.eq_of_append hr hr' hs
      rw [ih h']
    | char hc _ => exact absurd (hs ▸ prefix_append _ _) (hc r hr)
  | @char c s t hc _ ih =>
    generalize hs : c :: s = s' at h'
    cases h' with
    | nil => cases hs
    | slot hr' _ => exact absurd (hs ▸ prefix_append _ _) (hc _ hr')
    | char _ h' =>
      cases hs
      rw [ih h']

theorem OnePass.mono {rs' : List (Text × Text)} (h : OnePass rs s t) (hmem : ∀ r, r ∈ rs ↔ r ∈ rs') : OnePass rs' s t := by
  induction h with
  | nil => exact .nil
  | slot hr _ ih => exact .slot ((hmem _).mp hr) ih
  | char hc _ ih => exact .char (fun r hr => hc r ((hmem r).mpr hr)) ih

theorem OnePass.exists_of_append (hx : CodePoint.scalar '\x7b' ∉ x) (h : OnePass rs (x ++ s) t) :
    ∃ t', t = x ++ t' ∧ OnePass rs s t' := by
  induction x generalizing t with
  | nil => exact ⟨t, rfl, h⟩
  | cons c x ih =>
    rw [mem_cons, not_or] at hx
    generalize hs : c :: x ++ s = s' at h
    cases h with
    | nil => cases hs
    | @slot r _ _ _ _ =>
      rw [placeholder_cons] at hs
      exact absurd (List.cons.inj hs).1.symm hx.1
    | char _ h =>
      obtain ⟨rfl, rfl⟩ := List.cons.inj hs
      obtain ⟨t', rfl, ht'⟩ := ih hx.2 h
      exact ⟨t', rfl, ht'⟩

theorem onePass_nil (s : Text) : OnePass [] s s := by
  induction s with
  | nil => exact .nil
  | cons c s ih => exact .char (fun _ hr => absurd hr not_mem_nil) ih

/-- **One placeholder before the others**: replacing it first changes nothing of the outcome. -/
theorem OnePass.cons (hrs : IsTable (r :: rs)) (hs : Flat s) (h : OnePass rs (replaceAll (placeholder r.1) r.2 s) t) :
    OnePass (r :: rs) s t := by
  obtain ⟨hword, hwords⟩ := forall_mem_cons.mp hrs.words
  have hvalue := hrs.values r mem_cons_self
  have hother {r' : Text × Text} (hr' : r' ∈ rs) : r.1 ≠ r'.1 :=
    fun heq => (nodup_cons.mp hrs.nodup).1 (mem_map.mpr ⟨r', hr', heq.symm⟩)
  -- The induction is on the length, since a placeholder is passed as a whole.
  induction hn : s.length using Nat.strong_induction_on generalizing s t with
  | _ n ih =>
    have hshorter {w rest : Text} (heq : placeholder w ++ rest = s) : rest.length < n := by
      rw [← hn, ← heq, placeholder_cons, length_append, length_cons]
      omega
    by_cases hp : placeholder r.1 <+: s
    · -- The placeholder is replaced here.
      obtain ⟨rest, rfl⟩ := hp
      rw [placeholder_cons, Text.replaceAll_append_self, ← placeholder_cons] at h
      obtain ⟨t', rfl, ht'⟩ := h.exists_of_append hvalue.1.1
      exact .slot mem_cons_self (ih _ (hshorter rfl) hs.of_append ht' rfl)
    · cases s with
      | nil =>
        rw [OnePass.unique hrs.tail h .nil]
        exact .nil
      | cons c s =>
        rw [Text.replaceAll_cons hp] at h
        generalize hs' : c :: replaceAll (placeholder r.1) r.2 s = s' at h
        cases h with
        | nil => cases hs'
        | @slot r' x t hr' h =>
          -- Another placeholder begins the result, so that it begins the text.
          obtain ⟨rest, hrest⟩ := prefix_of_prefix_cons hs (hwords r' hr') hvalue (hs' ▸ prefix_append _ x)
          rw [← Text.replaceAll_cons hp, ← hrest, replaceAll_placeholder (hwords r' hr') (hother hr') hword] at hs'
          obtain rfl := append_cancel_left hs'
          rw [← hrest] at hs ⊢
          exact .slot (mem_cons_of_mem _ hr') (ih _ (hshorter hrest) hs.of_append h rfl)
        | char hc h =>
          obtain ⟨rfl, rfl⟩ := List.cons.inj hs'
          refine .char (forall_mem_cons.mpr ⟨hp, fun r' hr' hp' => ?_⟩)
            (ih _ (by rw [← hn]; exact Nat.lt_succ_self _) (Flat.of_append (x := [c]) hs) h rfl)
          -- What begins the text begins the result.
          obtain ⟨rest, hrest⟩ := hp'
          refine hc r' hr' ?_
          rw [← Text.replaceAll_cons hp, ← hrest, replaceAll_placeholder (hwords r' hr') (hother hr') hword]
          exact prefix_append _ _

/-! ### Replacing all placeholders one after another -/

def replaceEach (rs : List (Text × Text)) (s : Text) : Text :=
  rs.foldl (fun s r => replaceAll (placeholder r.1) r.2 s) s

/-- **One after another is at once.** -/
theorem onePass_replaceEach (hrs : IsTable rs) (hs : Flat s) : OnePass rs s (replaceEach rs s) := by
  induction rs generalizing s with
  | nil => exact onePass_nil s
  | cons r rs ih =>
    have hflat : Flat (replaceAll (placeholder r.1) r.2 s) := hs.replaceAll (hrs.values r mem_cons_self)
    exact OnePass.cons hrs hs (ih hrs.tail hflat)

theorem replaceEach_perm {rs' : List (Text × Text)} (hrs : IsTable rs) (hs : Flat s) (hperm : rs'.Perm rs) :
    replaceEach rs' s = replaceEach rs s := by
  have h := onePass_replaceEach (hrs.perm hperm) hs
  exact (h.mono fun r => hperm.mem_iff).unique hrs (onePass_replaceEach hrs hs)

theorem replaceEach_complete (hrs : IsTable rs) (hs : Flat s) (hw : Braceless w)
    (h : placeholder w <:+: replaceEach rs s) : placeholder w <:+: s ∧ w ∉ rs.map Prod.fst := by
  induction rs generalizing s with
  | nil => exact ⟨h, not_mem_nil⟩
  | cons r rs ih =>
    have hvalue := hrs.values r mem_cons_self
    obtain ⟨hinside, hrest⟩ := ih hrs.tail (hs.replaceAll hvalue) h
    obtain ⟨htext, hne⟩ := infix_of_infix_replaceAll hs hw hvalue hinside
    exact ⟨htext, not_mem_cons_of_ne_of_not_mem hne hrest⟩

end PluginKit.Template
