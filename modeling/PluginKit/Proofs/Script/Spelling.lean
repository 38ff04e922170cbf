import PluginKit.Proofs.Text.Runs
import PluginKit.Script.Name

/-!
# How a name is spelled in a class name

The class name of a component comes from its name in two steps: first an identifier, in which other characters than
word characters are underscores, then the runs between underscores, each capitalized and written together. What is left
of the name are its words, the runs of word characters without the underscore (`className_safeName`). So names that
differ in what stands between the words, or in the case of letters inside of them, have the same class name.
-/

namespace PluginKit.Text

open List

variable {c d : CodePoint} {s : Text}

/-! ### Runs between separators -/

section
variable {p : CodePoint → Bool}

theorem fields_of_sep (hc : p c = true) (s : Text) : fields p (c :: s) = fields p s := by
  simp [fields, hc]

theorem fields_singleton (hc : p c = false) : fields p [c] = [[c]] := by
  simp [fields, hc]

theorem fields_before_sep (hc : p c = false) (hd : p d = true) (s : Text) :
    fields p (c :: d :: s) = [c] :: fields p (d :: s) := by
  rw [fields.eq_def]
  simp [hc, hd]

theorem fields_before_run {part : Text} {parts : List Text} (hc : p c = false) (hd : p d = false)
    (h : fields p (d :: s) = part :: parts) : fields p (c :: d :: s) = (c :: part) :: parts := by
  rw [fields.eq_def]
  simp [hc, hd, h]

/-- A run begins with the character at the front, if that is no separator. -/
theorem exists_fields (hc : p c = false) (s : Text) : ∃ part parts, fields p (c :: s) = (c :: part) :: parts := by
  induction s generalizing c with
  | nil => exact ⟨_, _, fields_singleton hc⟩
  | cons d s ih =>
    cases hd : p d with
    | true => exact ⟨_, _, fields_before_sep hc hd s⟩
    | false =>
      obtain ⟨part, parts, hparts⟩ := ih hd
      exact ⟨_, _, fields_before_run hc hd hparts⟩

/-- **Runs do not go over a separator.** -/
theorem fields_append_sep (hc : p c = true) (s t : Text) : fields p (s ++ c :: t) = fields p s ++ fields p t := by
  induction s with
  | nil => exact fields_of_sep hc t
  | cons d s ih =>
    cases hd : p d with
    | true => rw [cons_append, fields_of_sep hd, fields_of_sep hd, ih]
    | false =>
      cases s with
      | nil =>
        rw [cons_append, nil_append, fields_before_sep hd hc, fields_singleton hd, fields_of_sep hc]
        rfl
      | cons e s =>
        rw [cons_append, cons_append] at *
        cases he : p e with
        | true => rw [fields_before_sep hd he, fields_before_sep hd he, ih, cons_append]
        | false =>
          obtain ⟨part, parts, hparts⟩ := exists_fields he s
          rw [hparts] at ih
          rw [fields_before_run hd he ih, fields_before_run hd he hparts]
          rfl

theorem fields_of_run (hne : s ≠ []) (hs : ∀ c ∈ s, p c = false) : fields p s = [s] := by
  induction s with
  | nil => exact absurd rfl hne
  | cons c s ih =>
    obtain ⟨hc, hs⟩ := forall_mem_cons.mp hs
    cases s with
    | nil => exact fields_singleton hc
    | cons d s => exact fields_before_run hc (hs d mem_cons_self) (ih (cons_ne_nil d s) hs)

theorem fields_eq_nil (hs : ∀ c ∈ s, p c = true) : fields p s = [] := by
  induction s with
  | nil => rfl
  | cons c s ih =>
    obtain ⟨hc, hs⟩ := forall_mem_cons.mp hs
    rw [fields_of_sep hc, ih hs]

theorem fields_dropWhile (s : Text) : fields p (s.dropWhile p) = fields p s := by
  induction s with
  | nil => rfl
  | cons c s ih =>
    by_cases hc : p c = true
    · rw [dropWhile_cons_of_pos hc, fields_of_sep hc, ih]
    · rw [dropWhile_cons_of_neg hc]

theorem fields_append_seps {t : Text} (ht : ∀ c ∈ t, p c = true) (s : Text) : fields p (s ++ t) = fields p s := by
  cases t with
  | nil => rw [append_nil]
  | cons c t =>
    obtain ⟨hc, ht⟩ := forall_mem_cons.mp ht
    rw [fields_append_sep hc, fields_eq_nil ht, append_nil]

theorem fields_trim (s : Text) : fields p (trim p s) = fields p s := by
  have hsplit : s.dropWhile p = trim p s ++ ((s.dropWhile p).reverse.takeWhile p).reverse := by
    rw [trim, ← reverse_append, takeWhile_append_dropWhile, reverse_reverse]
  rw [← fields_dropWhile s, hsplit, fields_append_seps]
  exact fun c hc => mem_takeWhile_imp (mem_reverse.mp hc)

/-- Only separators are changed, and they stay separators, so the runs stay. -/
theorem fields_map {q : CodePoint → Bool} {f : CodePoint → CodePoint} (hsep : ∀ c ∈ s, p (f c) = q c)
    (hkeep : ∀ c ∈ s, q c = false → f c = c) : fields p (s.map f) = fields q s := by
  induction s with
  | nil => rfl
  | cons c s ih =>
    obtain ⟨hc, hs⟩ := forall_mem_cons.mp hsep
    obtain ⟨hcf, hsf⟩ := forall_mem_cons.mp hkeep
    have ih := ih hs hsf
    cases hq : q c with
    | true => rw [map_cons, fields_of_sep (hc.trans hq), fields_of_sep hq, ih]
    | false =>
      have hp := hc.trans hq
      rw [map_cons, hcf hq] at *
      cases s with
      | nil => rw [map_nil, fields_singleton hp, fields_singleton hq]
      | cons d s =>
        have hd := hs d mem_cons_self
        rw [map_cons] at *
        cases hqd : q d with
        | true => rw [fields_before_sep hp (hd.trans hqd), fields_before_sep hq hqd, ih]
        | false =>
          obtain ⟨part, parts, hparts⟩ := exists_fields hqd s
          rw [fields_before_run hp (hd.trans hqd) (ih.trans hparts), fields_before_run hq hqd hparts]

end

theorem isBlank_of_isWord (h : isWord c = true) : isBlank c = false := by
  have hascii : ∀ n < 128, isWord (.ofNat n) = true → isBlank (.ofNat n) = false := by decide +kernel
  have hranges : ∀ r ∈ rangesFrom 0 wordSpans, ∀ b ∈ [(0x85, 0x85), (0xA0, 0xA0), (0x1680, 0x1680), (0x2000, 0x200A),
      (0x2028, 0x2029), (0x202F, 0x202F), (0x205F, 0x205F), (0x3000, 0x3000)], r.2 ≤ b.1 ∨ b.2 < r.1 := by decide +kernel
  by_cases hc : c.toNat < 128
  · rw [← c.ofNat_toNat] at h ⊢
    exact hascii _ hc h
  · rw [isWord, if_neg hc] at h
    obtain ⟨r, hr, h⟩ := (inSpans_iff 0).mp h
    have hrange := hranges r hr
    simp only [forall_mem_cons] at hrange
    by_contra hb
    simp only [isBlank, Bool.not_eq_false, Bool.or_eq_true, Bool.and_eq_true, decide_eq_true_iff, beq_iff_eq] at hb
    omega

end PluginKit.Text

namespace PluginKit.Script

open Text

/-! ### Words -/

/-- The words of a name: its runs of word characters without the underscore. -/
def nameWords (name : Text) : List Text := fields (fun c => !isWord c || c == '_') name

/-- The words of the class name for a name: a name without words is called unnamed, and one that begins with a digit has
a word put in front. -/
def classWords (name : Text) : List Text :=
  match nameWords name with
  | [] => ["unnamed"]
  | word :: words => if (word.head?.any isDigit) then "cmd" :: word :: words else word :: words

def spelling (name : Text) : Text := (classWords name).flatMap capitalize

theorem fields_wordsOnly (name : Text) : fields (· == .scalar '_') (wordsOnly name) = nameWords name := by
  rw [wordsOnly, fields_trim]
  refine fields_map (fun c _ => ?_) fun c _ hc => ?_
  · by_cases hc : isWord c = true
    · simp [hc]
    · simp [hc]
  · rw [Bool.or_eq_false_iff] at hc
    rw [if_pos (by simpa using hc.1)]

theorem fields_safeName (name : Text) : fields (· == .scalar '_') (safeName name) = classWords name := by
  have hwords := fields_wordsOnly name
  unfold safeName classWords
  split
  · next hnil =>
    rw [hnil] at hwords
    rw [← hwords]
    decide
  · next c s hcons =>
    have hc := avoids_of_trim (p := fun d => d == .scalar '_') hcons
    obtain ⟨word, words, hfields⟩ := exists_fields (p := fun d => d == .scalar '_') hc s
    rw [hcons, hfields] at hwords
    rw [← hwords]
    have hfirst : (c :: word).head?.any isDigit = isDigit c := rfl
    simp only [hfirst]
    split
    · have hcut : ("cmd_" ++ c :: s : Text) = ("cmd" : Text) ++ .scalar '_' :: (c :: s) := rfl
      rw [hcut, fields_append_sep (by decide), hfields, fields_of_run (by decide) (by decide)]
      rfl
    · exact hfields

theorem isWord_of_mem_safeName {name : Text} : ∀ c ∈ safeName name, isWord c = true := by
  have hwords : ∀ c ∈ wordsOnly name, isWord c = true := by
    intro c hc
    obtain ⟨d, -, rfl⟩ := List.mem_map.mp (mem_of_mem_trim hc)
    split
    · assumption
    · decide
  unfold safeName
  split
  · decide
  · next c cs hcs =>
    rw [hcs] at hwords
    split
    · exact List.forall_mem_append.mpr ⟨by decide, hwords⟩
    · exact hwords

/-- In a name without blanks only underscores separate. -/
theorem fields_of_no_blank {name : Text} (h : ∀ c ∈ name, isBlank c = false) :
    fields (fun c => c == '_' || isBlank c) name = fields (· == .scalar '_') name := by
  have hsame := fields_map (p := fun c => c == '_' || isBlank c) (q := (· == .scalar '_')) (f := id) (s := name)
    (fun c hc => ?_) fun _ _ _ => rfl
  · rw [← hsame, List.map_id]
  · show (c == .scalar '_' || isBlank c) = _
    rw [h c hc, Bool.or_false]

theorem isBlank_of_mem_safeName {name : Text} : ∀ c ∈ safeName name, isBlank c = false :=
  fun c hc => isBlank_of_isWord (isWord_of_mem_safeName c hc)

/-- **The class name of a component** is made of the words of its name, capitalized and written together. -/
theorem className_safeName (name : Text) : className (safeName name) = spelling name := by
  rw [className, classNameWith, camel, fields_of_no_blank isBlank_of_mem_safeName, fields_safeName, spelling]

end PluginKit.Script
