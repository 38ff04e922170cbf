import PluginKit.Proofs.Script.Spelling
import PluginKit.Proofs.Template.Identifiers

/-!
# Names made safe

A component is known by a safe name: word characters only, with no underscore at its ends and no digit in front
(`IsSafeName`). Every name is turned into one, and the safe names are those that stay as they are
(`safeName_eq_self_iff`).

Class names are built in two ways, from the runs between underscores and blanks or from the parts between single
underscores. The parts are the runs and some empty texts (`fields_eq_filter_splitOn`), so in a name without blanks both
ways lead to the same class name (`className_eq_classPrefix`). For a safe name in ASCII it is in camel case.
-/

namespace PluginKit.Text

open List

variable {p : CodePoint → Bool} {sep c : CodePoint} {s t : Text}

/-! ### Parts and runs -/

theorem splitOn_sep (sep : CodePoint) (s : Text) : splitOn sep (sep :: s) = [] :: splitOn sep s := by
  rw [splitOn, if_pos rfl]

theorem splitOn_cons_of_ne {part : Text} {parts : List Text} (hc : c ≠ sep) (h : splitOn sep s = part :: parts) :
    splitOn sep (c :: s) = (c :: part) :: parts := by
  rw [splitOn, if_neg hc, h]

/-- **The runs between separators are the parts that are not empty.** -/
theorem fields_eq_filter_splitOn (hp : ∀ c, p c = true ↔ c = sep) (s : Text) :
    fields p s = (splitOn sep s).filter fun part => !part.isEmpty := by
  have hsep : p sep = true := (hp sep).mpr rfl
  have hrun : ∀ c, c ≠ sep → p c = false := fun c hc => Bool.eq_false_iff.mpr fun h => hc ((hp c).mp h)
  induction s with
  | nil => rfl
  | cons c s ih =>
    by_cases hc : c = sep
    · subst hc
      rw [fields_of_sep hsep, splitOn_sep, ih]
      rfl
    · cases s with
      | nil =>
        rw [fields_singleton (hrun c hc), splitOn_cons_of_ne hc rfl]
        rfl
      | cons d s =>
        by_cases hd : d = sep
        · subst hd
          rw [fields_before_sep (hrun c hc) hsep, ih, splitOn_cons_of_ne hc (splitOn_sep d s), splitOn_sep]
          rfl
        · -- the run goes on, and so does the part
          obtain ⟨part, parts, hsplit⟩ := exists_splitOn_cons hd s
          rw [hsplit, filter_cons_of_pos rfl] at ih
          rw [fields_before_run (hrun c hc) (hrun d hd) ih, splitOn_cons_of_ne hc hsplit]
          rfl

theorem not_sep_of_mem_fields {part : Text} (h : part ∈ fields p s) : ∀ c ∈ part, p c = false := by
  induction s generalizing part with
  | nil => cases h
  | cons c s ih =>
    cases hc : p c with
    | true =>
      rw [fields_of_sep hc] at h
      exact ih h
    | false =>
      have hsingle : ∀ d ∈ [c], p d = false := forall_mem_singleton.mpr hc
      cases s with
      | nil =>
        rw [fields_singleton hc, mem_singleton] at h
        rw [h]
        exact hsingle
      | cons d s =>
        cases hd : p d with
        | true =>
          rw [fields_before_sep hc hd] at h
          rcases mem_cons.mp h with rfl | h
          · exact hsingle
          · exact ih h
        | false =>
          obtain ⟨first, parts, hfields⟩ := exists_fields hd s
          rw [fields_before_run hc hd hfields] at h
          rw [hfields] at ih
          rcases mem_cons.mp h with rfl | h
          · exact forall_mem_cons.mpr ⟨hc, ih mem_cons_self⟩
          · exact ih (mem_cons_of_mem _ h)

/-! ### Ends of a text -/

theorem avoids_trim (p : CodePoint → Bool) (s : Text) : Avoids p (trim p s) := by
  intro c hc
  obtain ⟨t, ht⟩ := head?_eq_some_iff.mp hc
  exact avoids_of_trim ht

theorem avoids_trim_reverse (p : CodePoint → Bool) (s : Text) : Avoids p (trim p s).reverse := by
  intro c hc
  rw [trim, reverse_reverse] at hc
  have hhead := head?_dropWhile_not p (s.dropWhile p).reverse
  rw [hc] at hhead
  exact hhead

theorem Avoids.append (hs : Avoids p s) (hne : s ≠ []) : Avoids p (s ++ t) := by
  intro c hc
  rw [head?_append_of_ne_nil s hne] at hc
  exact hs c hc

end PluginKit.Text

namespace PluginKit.Script

open Text List

variable {cap : Text → Text} {name s : Text} {c : CodePoint}

/-! ### Two builders of class names -/

theorem camel_filter (hcap : cap [] = []) (words : List Text) :
    camel cap (words.filter fun word => !word.isEmpty) = camel cap words := by
  induction words with
  | nil => rfl
  | cons word words ih =>
    cases word with
    | nil => rw [filter_cons_of_neg (by simp), ih, camel, camel, flatMap_cons, hcap, nil_append]
    | cons c word => rw [filter_cons_of_pos rfl, camel, flatMap_cons, ← camel, ih, camel, camel, flatMap_cons]

theorem classNameWith_eq_classPrefixWith (hcap : cap [] = []) (h : ∀ c ∈ name, isBlank c = false) :
    classNameWith cap name = classPrefixWith cap name := by
  calc classNameWith cap name
    _ = camel cap (fields (· == .scalar '_') name) := by rw [classNameWith, fields_of_no_blank h]
    _ = camel cap ((splitOn '_' name).filter fun part => !part.isEmpty) := by
      rw [fields_eq_filter_splitOn fun _ => beq_iff_eq]
    _ = classPrefixWith cap name := camel_filter hcap _

theorem className_eq_classPrefix (h : ∀ c ∈ name, isBlank c = false) : className name = classPrefix name :=
  classNameWith_eq_classPrefixWith rfl h

/-- **The two builders agree on a name exactly if it has no blanks**, whatever its underscores are and however words are
capitalized, as long as nothing becomes of nothing. -/
theorem builders_agree_iff (name : Text) :
    (∀ cap : Text → Text, cap [] = [] → classNameWith cap name = classPrefixWith cap name) ↔
      ∀ c ∈ name, isBlank c = false := by
  constructor
  · intro h c hc
    -- with words left as they are, a blank is in the one class name and not in the other
    have hsame := h id rfl
    by_contra hblank
    rw [Bool.not_eq_false] at hblank
    have hne : c ≠ '_' := by
      rintro rfl
      exact absurd hblank (by decide)
    obtain ⟨part, hpart, hmem⟩ := exists_mem_splitOn hne hc
    have hprefix : c ∈ classPrefixWith id name := List.mem_flatMap.mpr ⟨part, hpart, hmem⟩
    rw [← hsame] at hprefix
    obtain ⟨run, hrun, hmem⟩ := List.mem_flatMap.mp hprefix
    have hsep := not_sep_of_mem_fields hrun c hmem
    rw [hblank, Bool.or_true] at hsep
    cases hsep
  · intro h cap hcap
    exact classNameWith_eq_classPrefixWith hcap h

/-- Underscores at the ends and side by side make no difference. -/
theorem underscores_agree : (∀ c ∈ ("__my__plugin_" : Text), isBlank c = false) ∧
    className "__my__plugin_" = classPrefix "__my__plugin_" ∧ classPrefix "__my__plugin_" = "MyPlugin" :=
  ⟨by decide, (builders_agree_iff _).mpr (by decide) capitalize rfl, by decide⟩

/-! ### Safe names -/

/-- A name of word characters, with no underscore at its ends and no digit in front. -/
structure IsSafeName (s : Text) : Prop where
  ne_nil : s ≠ []
  word : ∀ c ∈ s, isWord c = true
  front : Avoids (· == .scalar '_') s
  back : Avoids (· == .scalar '_') s.reverse
  digit : Avoids isDigit s

/-- **Every name becomes a safe name.** -/
theorem isSafeName_safeName (name : Text) : IsSafeName (safeName name) := by
  have hword : ∀ c ∈ safeName name, isWord c = true := isWord_of_mem_safeName
  have hfront : Avoids (· == .scalar '_') (wordsOnly name) := avoids_trim _ _
  have hback : Avoids (· == .scalar '_') (wordsOnly name).reverse := avoids_trim_reverse _ _
  unfold safeName at hword ⊢
  split at hword
  · exact ⟨by decide, hword, avoids_cons (by decide), avoids_cons (by decide), avoids_cons (by decide)⟩
  · next c cs hcs =>
    rw [hcs] at hfront hback
    split at hword
    · next hdigit =>
      -- the prefix is in front, the end is that of the name
      rw [if_pos hdigit]
      refine ⟨cons_ne_nil _ _, hword, avoids_cons (by decide), ?_, avoids_cons (by decide)⟩
      rw [reverse_append]
      exact hback.append (by simp)
    · next hdigit =>
      rw [if_neg hdigit]
      exact ⟨cons_ne_nil _ _, hword, hfront, hback, avoids_cons (by simpa using hdigit)⟩

theorem wordsOnly_eq_self (hword : ∀ c ∈ s, isWord c = true) (hfront : Avoids (· == .scalar '_') s)
    (hback : Avoids (· == .scalar '_') s.reverse) : wordsOnly s = s := by
  have hmap : (s.map fun c => if isWord c then c else '_') = s := by
    refine (map_congr_left fun c hc => ?_).trans (map_id s)
    rw [if_pos (hword c hc)]
    rfl
  rw [wordsOnly, hmap]
  exact trim_of_avoids hfront hback

/-- **The safe names are those that stay as they are.** -/
theorem safeName_eq_self_iff : safeName s = s ↔ IsSafeName s := by
  constructor
  · intro h
    rw [← h]
    exact isSafeName_safeName s
  · intro h
    obtain ⟨c, cs, rfl⟩ := exists_cons_of_ne_nil h.ne_nil
    have hdigit := h.digit c rfl
    rw [safeName, wordsOnly_eq_self h.word h.front h.back]
    simp [hdigit]

/-! ### Safe names in ASCII -/

theorem isNameChar_of_isWord (hc : c.toNat < 128) (h : isWord c = true) : isNameChar c = true := by
  rw [isWord, if_pos hc] at h
  exact h

theorem lt_of_mem_safeName (h : ∀ c ∈ name, c.toNat < 128) : ∀ c ∈ safeName name, c.toNat < 128 := by
  have hwords : ∀ c ∈ wordsOnly name, c.toNat < 128 := by
    intro c hc
    obtain ⟨d, hd, rfl⟩ := mem_map.mp (mem_of_mem_trim hc)
    split
    · exact h d hd
    · decide
  unfold safeName
  split
  · decide
  · next c cs hcs =>
    rw [hcs] at hwords
    split
    · exact forall_mem_append.mpr ⟨by decide, hwords⟩
    · exact hwords

theorem IsSafeName.isPlainName (h : IsSafeName s) (hascii : ∀ c ∈ s, c.toNat < 128) : IsPlainName s := by
  have hname : ∀ c ∈ s, isNameChar c = true := fun c hc => isNameChar_of_isWord (hascii c hc) (h.word c hc)
  obtain ⟨c, cs, rfl⟩ := exists_cons_of_ne_nil h.ne_nil
  obtain ⟨hc, hcs⟩ := forall_mem_cons.mp hname
  refine ⟨c, cs, rfl, ?_, hcs⟩
  have hfront : (c == .scalar '_') = false := h.front c rfl
  have hdigit := h.digit c rfl
  rw [isDigit, if_pos (hascii c mem_cons_self)] at hdigit
  rw [isNameChar, hdigit, hfront, Bool.or_false, Bool.or_false] at hc
  exact hc

theorem isCamel_className_safeName (h : ∀ c ∈ name, c.toNat < 128) : IsCamel (className (safeName name)) := by
  rw [className_eq_classPrefix isBlank_of_mem_safeName]
  exact ((isSafeName_safeName name).isPlainName (lt_of_mem_safeName h)).isCamel

/-- **Names are made safe once and for all.** Every name becomes a safe one, only a safe one stays as it is, and so a
name that was made safe does. If the name is in ASCII, the class name it leads to is in camel case. -/
theorem safeName_stable (name : Text) :
    IsSafeName (safeName name) ∧ (safeName name = name ↔ IsSafeName name) ∧
      safeName (safeName name) = safeName name ∧
      ((∀ c ∈ name, c.toNat < 128) → IsCamel (className (safeName name))) :=
  ⟨isSafeName_safeName name, safeName_eq_self_iff, safeName_eq_self_iff.mpr (isSafeName_safeName name),
    isCamel_className_safeName⟩

/-- A name with underscores at its ends and a digit behind them. -/
theorem secondPlugin_stable : safeName "__2nd plugin!_" = "cmd_2nd_plugin" ∧ IsSafeName (safeName "__2nd plugin!_") ∧
    safeName "cmd_2nd_plugin" = "cmd_2nd_plugin" ∧ IsCamel (className (safeName "__2nd plugin!_")) := by
  obtain ⟨hsafe, -, hstable, hcamel⟩ := safeName_stable "__2nd plugin!_"
  have hname : safeName "__2nd plugin!_" = "cmd_2nd_plugin" := by decide
  rw [hname] at hstable
  exact ⟨hname, hsafe, hstable, hcamel (by decide)⟩

end PluginKit.Script
