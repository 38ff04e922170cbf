import PluginKit.Proofs.Template.Names

/-!
# Names of plugins as identifiers

The name of a plugin is meant to be a letter with letters, digits and underscores after it (`IsPlainName`). The names of
classes that are made from it are then in camel case, and identifiers. A name that is accepted is such a name, or one
with a line end behind it; the line end gets into all names of classes, so that none of them is an identifier
(`accepted_iff`).
-/

namespace PluginKit.Text

open List

variable {sep c : CodePoint} {s : Text}

theorem not_mem_of_mem_splitOn {part : Text} (h : part ∈ splitOn sep s) : sep ∉ part := by
  induction s generalizing part with
  | nil =>
    rw [mem_singleton.mp h]
    exact not_mem_nil
  | cons c s ih =>
    rw [splitOn] at h
    split at h
    · rcases mem_cons.mp h with rfl | h
      · exact not_mem_nil
      · exact ih h
    · next hc =>
      split at h
      · rw [mem_singleton.mp h, mem_singleton]
        exact Ne.symm hc
      · next first parts hsplit =>
        rw [hsplit] at ih
        rcases mem_cons.mp h with rfl | h
        · rw [mem_cons, not_or]
          exact ⟨Ne.symm hc, ih mem_cons_self⟩
        · exact ih (mem_cons_of_mem _ h)

/-- The first part begins with the first character, unless that is the separator. -/
theorem exists_splitOn_cons (hc : c ≠ sep) (s : Text) : ∃ part parts, splitOn sep (c :: s) = (c :: part) :: parts := by
  rw [splitOn, if_neg hc]
  split
  · exact ⟨_, _, rfl⟩
  · exact ⟨_, _, rfl⟩

/-- What is in a text is in one of its parts, unless it is the separator. -/
theorem exists_mem_splitOn (hc : c ≠ sep) (h : c ∈ s) : ∃ part ∈ splitOn sep s, c ∈ part := by
  induction s with
  | nil => cases h
  | cons d s ih =>
    by_cases hd : d = sep
    · rw [splitOn, if_pos hd]
      rcases mem_cons.mp h with rfl | h
      · exact absurd hd hc
      · obtain ⟨part, hpart, hmem⟩ := ih h
        exact ⟨part, mem_cons_of_mem _ hpart, hmem⟩
    · rw [splitOn, if_neg hd]
      rcases mem_cons.mp h with rfl | h
      · split
        · exact ⟨_, mem_cons_self, mem_cons_self⟩
        · exact ⟨_, mem_cons_self, mem_cons_self⟩
      · obtain ⟨part, hpart, hmem⟩ := ih h
        split
        · next hnil =>
          rw [hnil] at hpart
          cases hpart
        · next first parts hsplit =>
          rw [hsplit] at hpart
          rcases mem_cons.mp hpart with rfl | hpart
          · exact ⟨_, mem_cons_self, mem_cons_of_mem _ hmem⟩
          · exact ⟨part, mem_cons_of_mem _ hpart, hmem⟩

end PluginKit.Text

namespace PluginKit.Script

open Text List

variable {s name : Text} {c : CodePoint}

/-! ### Plain names -/

/-- A letter of ASCII, and after it letters, digits and underscores of ASCII. -/
def IsPlainName (name : Text) : Prop :=
  ∃ c cs, name = c :: cs ∧ isAsciiLetter c = true ∧ ∀ d ∈ cs, isNameChar d = true

theorem nameTail_of_all {cs : Text} (h : ∀ d ∈ cs, isNameChar d = true) :
    nameTail cs = true ∧ nameTail (cs ++ [.scalar '\n']) = true := by
  induction cs with
  | nil => exact ⟨rfl, rfl⟩
  | cons d cs ih =>
    obtain ⟨hd, hcs⟩ := forall_mem_cons.mp h
    obtain ⟨hends, hline⟩ := ih hcs
    have hcons : ∀ t : Text, nameTail t = true → nameTail (d :: t) = true := by
      intro t ht
      unfold nameTail
      split
      · rfl
      · rfl
      · next c u _ hc =>
        cases hc
        rw [hd, ht]
        rfl
    exact ⟨hcons cs hends, hcons _ hline⟩

/-- What follows the first letter of a name that is accepted: characters of names, and perhaps a line end. -/
theorem nameTail_iff :
    nameTail s = true ↔ ∃ cs : Text, (∀ d ∈ cs, isNameChar d = true) ∧ (s = cs ∨ s = cs ++ [.scalar '\n']) := by
  constructor
  · intro h
    induction s with
    | nil => exact ⟨[], forall_mem_nil _, .inl rfl⟩
    | cons d s ih =>
      unfold nameTail at h
      split at h
      · next hd => cases hd
      · next hd =>
        cases hd
        exact ⟨[], forall_mem_nil _, .inr rfl⟩
      · next hd =>
        cases hd
        rw [Bool.and_eq_true] at h
        obtain ⟨cs, hcs, rfl | rfl⟩ := ih h.2
        · exact ⟨d :: s, forall_mem_cons.mpr ⟨h.1, hcs⟩, .inl rfl⟩
        · exact ⟨d :: cs, forall_mem_cons.mpr ⟨h.1, hcs⟩, .inr rfl⟩
  · rintro ⟨cs, hcs, rfl | rfl⟩
    · exact (nameTail_of_all hcs).1
    · exact (nameTail_of_all hcs).2

/-- **The names that are accepted** are the plain ones, and these with a line end behind them. -/
theorem isPluginName_iff :
    isPluginName name = true ↔ IsPlainName name ∨ ∃ stem, IsPlainName stem ∧ name = stem ++ [.scalar '\n'] := by
  constructor
  · intro h
    unfold isPluginName at h
    split at h
    · cases h
    · next c s =>
      rw [Bool.and_eq_true, nameTail_iff] at h
      obtain ⟨hc, cs, hcs, rfl | rfl⟩ := h
      · exact .inl ⟨c, s, rfl, hc, hcs⟩
      · exact .inr ⟨c :: cs, ⟨c, cs, rfl, hc, hcs⟩, rfl⟩
  · rintro (⟨c, cs, rfl, hc, hcs⟩ | ⟨stem, ⟨c, cs, rfl, hc, hcs⟩, rfl⟩)
    · rw [isPluginName, hc, nameTail_iff.mpr ⟨cs, hcs, .inl rfl⟩]
      rfl
    · rw [cons_append, isPluginName, hc, nameTail_iff.mpr ⟨cs, hcs, .inr rfl⟩]
      rfl

theorem IsPlainName.isNameChar (h : IsPlainName name) : ∀ d ∈ name, isNameChar d = true := by
  obtain ⟨c, cs, rfl, hc, hcs⟩ := h
  refine forall_mem_cons.mpr ⟨?_, hcs⟩
  rw [Script.isNameChar, hc, Bool.true_or, Bool.true_or]

/-! ### Camel case -/

def isAsciiCapital (c : CodePoint) : Bool := 'A' ≤ c && c ≤ 'Z'

def isAsciiAlnum (c : CodePoint) : Bool := isAsciiLetter c || isAsciiDigit c

/-- A capital letter, and after it letters and digits. -/
def IsCamel (s : Text) : Prop := ∃ c cs, s = c :: cs ∧ isAsciiCapital c = true ∧ ∀ d ∈ cs, isAsciiAlnum d = true

/-- An identifier in ASCII: it begins with a letter or an underscore, and letters, digits and underscores follow. -/
def IsIdentifier (s : Text) : Prop :=
  ∃ c cs, s = c :: cs ∧ (isAsciiLetter c || c == '_') = true ∧ ∀ d ∈ cs, isNameChar d = true

theorem isLabelChar_of_isAsciiAlnum (h : isAsciiAlnum c = true) : Template.isLabelChar c = true := by
  rw [isAsciiAlnum] at h
  rw [Template.isLabelChar, Template.isTitleChar, isNameChar, h, Bool.true_or, Bool.true_or, Bool.true_or]

theorem caseClosed_isAsciiAlnum : Template.CaseClosed isAsciiAlnum where
  ascii h := Template.lt_of_isLabelChar (isLabelChar_of_isAsciiAlnum h)
  lower h := Template.forall_ascii (p := fun c => isAsciiAlnum c = true → (lowerChar c).all isAsciiAlnum = true)
    (by decide +kernel) (Template.lt_of_isLabelChar (isLabelChar_of_isAsciiAlnum h)) h
  title h := Template.forall_ascii (p := fun c => isAsciiAlnum c = true → (titleChar c).all isAsciiAlnum = true)
    (by decide +kernel) (Template.lt_of_isLabelChar (isLabelChar_of_isAsciiAlnum h)) h

theorem isAsciiAlnum_of_isNameChar (h : isNameChar c = true) (hc : c ≠ '_') : isAsciiAlnum c = true := by
  rw [isNameChar, Bool.or_eq_true] at h
  rcases h with h | h
  · exact h
  · exact absurd (beq_iff_eq.mp h) hc

theorem IsPlainName.all_part {part : Text} (h : IsPlainName name) (hpart : part ∈ splitOn '_' name) :
    part.all isAsciiAlnum = true := by
  rw [all_eq_true]
  intro d hd
  refine isAsciiAlnum_of_isNameChar (h.isNameChar d (Template.mem_of_mem_splitOn hpart hd)) ?_
  rintro rfl
  exact not_mem_of_mem_splitOn hpart hd

theorem isCamel_titleChar_append (hc : isAsciiLetter c = true)
    (hs : ∀ d ∈ s, isAsciiAlnum d = true) : IsCamel (titleChar c ++ s) := by
  have hascii : c.toNat < 128 :=
    Template.lt_of_isLabelChar (isLabelChar_of_isAsciiAlnum (by rw [isAsciiAlnum, hc, Bool.true_or]))
  have htitle := Template.forall_ascii
    (p := fun c => isAsciiLetter c = true → ∀ d ∈ titleChar c, isAsciiCapital d = true) (by decide +kernel) hascii hc
  rw [titleChar, if_pos hascii] at htitle ⊢
  exact ⟨_, s, rfl, htitle _ mem_cons_self, hs⟩

/-- **The class names of a plain name** begin in camel case. -/
theorem IsPlainName.isCamel (h : IsPlainName name) : IsCamel (classPrefix name) := by
  have hall : ∀ part ∈ splitOn '_' name, part.all isAsciiAlnum = true := fun _ => h.all_part
  obtain ⟨c, cs, rfl, hc, -⟩ := h
  have hne : c ≠ '_' := by
    rintro rfl
    exact absurd hc (by decide)
  obtain ⟨part, parts, hsplit⟩ := exists_splitOn_cons hne cs
  rw [classPrefix, classPrefixWith, camel, hsplit, flatMap_cons, capitalize, append_assoc]
  rw [hsplit] at hall
  have hpart := hall _ mem_cons_self
  rw [all_cons, Bool.and_eq_true] at hpart
  refine isCamel_titleChar_append hc ?_
  intro d hd
  rcases mem_append.mp hd with hd | hd
  · exact all_eq_true.mp (caseClosed_isAsciiAlnum.all_lowerFrom hpart.2 _) d hd
  · obtain ⟨other, hother, hd⟩ := mem_flatMap.mp hd
    exact all_eq_true.mp (caseClosed_isAsciiAlnum.all_capitalize (hall _ (mem_cons_of_mem _ hother))) d hd

theorem IsCamel.isIdentifier_append {t : Text} (hs : IsCamel s) (ht : t.all isAsciiAlnum = true) :
    IsIdentifier (s ++ t) := by
  have hname : ∀ d, isAsciiAlnum d = true → isNameChar d = true := by
    intro d hd
    rw [isAsciiAlnum] at hd
    rw [isNameChar, hd, Bool.true_or]
  obtain ⟨c, cs, rfl, hc, hcs⟩ := hs
  refine ⟨c, cs ++ t, rfl, ?_, ?_⟩
  · rw [isAsciiCapital] at hc
    rw [isAsciiLetter, hc, Bool.or_true, Bool.true_or]
  · intro d hd
    rcases mem_append.mp hd with hd | hd
    · exact hname d (hcs d hd)
    · exact hname d (all_eq_true.mp ht d hd)

/-! ### Line ends -/

theorem mem_capitalize_lineEnd (h : CodePoint.scalar '\n' ∈ s) : CodePoint.scalar '\n' ∈ capitalize s := by
  have hlower : ∀ (t before : Text), CodePoint.scalar '\n' ∈ t → CodePoint.scalar '\n' ∈ lowerFrom before t := by
    intro t
    induction t with
    | nil => exact fun _ ht => ht
    | cons c t ih =>
      intro before ht
      rw [lowerFrom, mem_append]
      rcases mem_cons.mp ht with rfl | ht
      · exact .inl mem_cons_self
      · exact .inr (ih _ ht)
  cases s with
  | nil => cases h
  | cons c s =>
    rw [capitalize, mem_append]
    rcases mem_cons.mp h with rfl | h
    · exact .inl mem_cons_self
    · exact .inr (hlower s [c] h)

theorem mem_classPrefix_lineEnd (h : CodePoint.scalar '\n' ∈ name) : CodePoint.scalar '\n' ∈ classPrefix name := by
  obtain ⟨part, hpart, hmem⟩ := exists_mem_splitOn (show CodePoint.scalar '\n' ≠ '_' by decide) h
  exact mem_flatMap.mpr ⟨part, hpart, mem_capitalize_lineEnd hmem⟩

theorem IsIdentifier.not_mem_lineEnd (h : IsIdentifier s) : CodePoint.scalar '\n' ∉ s := by
  obtain ⟨c, cs, rfl, hc, hcs⟩ := h
  intro hmem
  rcases mem_cons.mp hmem with rfl | hmem
  · exact absurd hc (by decide)
  · exact absurd (hcs _ hmem) (by decide)

end PluginKit.Script

namespace PluginKit.Template

open Script

/-- The names of classes that are written into the files of a plugin. -/
def Facts.classNames (f : Facts) : List Text :=
  (f.replacements.filter fun r => Text.endsWith "CLASS_NAME" r.1).map (·.2)

theorem Facts.classNames_eq (f : Facts) : f.classNames =
    (["Plugin", "Action", "Command", "Tool", "EventHandler", "StartHandler"] : List Text).map (classPrefix f.name ++ ·) := rfl

/-- **A name that is accepted** is one part of a path. It is plain, and then the names of classes in the files of the
plugin are identifiers, or it has a line end behind a plain name, and then none of them is one. -/
theorem accepted_iff (f : Facts) :
    isPluginName f.name = true ↔ Files.Tree.PlainPart f.name ∧
      (IsPlainName f.name ∧ IsCamel (classPrefix f.name) ∧ (∀ n ∈ f.classNames, IsIdentifier n) ∨
        (∃ stem, IsPlainName stem ∧ f.name = stem ++ [.scalar '\n']) ∧ ¬ IsCamel (classPrefix f.name) ∧
          ∀ n ∈ f.classNames, ¬ IsIdentifier n) := by
  constructor
  · intro h
    refine ⟨plainPart_of_isPluginName h, ?_⟩
    rw [f.classNames_eq]
    rcases isPluginName_iff.mp h with hplain | ⟨stem, hstem, hname⟩
    · refine .inl ⟨hplain, hplain.isCamel, ?_⟩
      intro n hn
      obtain ⟨word, hword, rfl⟩ := List.mem_map.mp hn
      refine hplain.isCamel.isIdentifier_append ?_
      fin_cases hword <;> rfl
    · have hline : CodePoint.scalar '\n' ∈ classPrefix f.name := by
        refine mem_classPrefix_lineEnd ?_
        rw [hname]
        exact List.mem_append_right _ List.mem_cons_self
      refine .inr ⟨⟨stem, hstem, hname⟩, ?_, ?_⟩
      · intro hcamel
        have hidentifier := hcamel.isIdentifier_append (t := []) rfl
        rw [List.append_nil] at hidentifier
        exact hidentifier.not_mem_lineEnd hline
      · intro n hn hidentifier
        obtain ⟨word, -, rfl⟩ := List.mem_map.mp hn
        exact hidentifier.not_mem_lineEnd (List.mem_append_left _ hline)
  · rintro ⟨-, ⟨hplain, -⟩ | ⟨hline, -⟩⟩
    · exact isPluginName_iff.mpr (.inl hplain)
    · exact isPluginName_iff.mpr (.inr hline)

/-- A letter with a line end behind it is accepted, and the line end stands in the middle of the names of classes. -/
theorem lineEnd_accepted : isPluginName "a\n" = true ∧ ¬ IsPlainName "a\n" ∧ ¬ IsCamel (classPrefix "a\n") ∧
    ("A\nPlugin" : Text) ∈ (Facts.mk "a\n" "d" "1" "A" 2024).classNames := by
  refine ⟨rfl, ?_, ?_, List.mem_cons_self⟩
  · intro h
    exact absurd (h.isNameChar '\n' (by decide)) (by decide)
  · rintro ⟨c, cs, hprefix, -, hcs⟩
    have hprefix' : ("A\n" : Text) = c :: cs := hprefix
    cases hprefix'
    exact absurd (hcs '\n' List.mem_cons_self) (by decide)

end PluginKit.Template
