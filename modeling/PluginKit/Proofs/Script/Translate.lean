import PluginKit.Proofs.Text.Replace
import PluginKit.Proofs.Text.Runs
import PluginKit.Script.Match

/-!
# The translation of match texts

A match text splits into characters and placeholders, from left to right (`Splits`). Its regular expression is made in
several passes, one for every placeholder, over the escaped text. They come to the same as a single pass that
translates piece by piece (`matchPattern_eq`): no pass finds anything but the placeholders of its word, whatever the
passes before it have replaced.
-/

namespace PluginKit.Script

open Text List

variable {s word u m v : Text} {c : CodePoint} {words : List Text}

variable {pieces : List Piece}

/-! ### Pieces -/

inductive Piece where
  | char (c : CodePoint)
  | hole (word : Text)

def Piece.word? : Piece → Option Text
  | char _ => none
  | hole word => some word

def Piece.pattern : Piece → Text
  | char c => escapeRegexChar c
  | hole _ => capture

structure IsName (word : Text) : Prop where
  nonempty : word ≠ []
  chars : ∀ c ∈ word, isWord c = true

/-- A match text splits into pieces; a brace is a piece of its own only where no placeholder begins. -/
inductive Splits : Text → List Piece → Prop where
  | nil : Splits [] []
  | hole {word s : Text} {pieces : List Piece} (hw : IsName word) (h : Splits s pieces) :
    Splits (.scalar '\x7b' :: (word ++ .scalar '\x7d' :: s)) (.hole word :: pieces)
  | char {c : CodePoint} {s : Text} {pieces : List Piece} (hc : c = '\x7b' → placeholder? s = none)
    (h : Splits s pieces) : Splits (c :: s) (.char c :: pieces)

theorem placeholder?_eq_some_iff :
    placeholder? s = some word ↔ IsName word ∧ ∃ rest, s = word ++ .scalar '\x7d' :: rest := by
  constructor
  · intro h
    unfold placeholder? at h
    simp only at h
    split at h
    · cases h
    · next hempty =>
      split at h
      · next hbrace =>
        cases h
        refine ⟨⟨by simpa using hempty, fun c hc => mem_takeWhile_imp hc⟩, ?_⟩
        obtain ⟨rest, hrest⟩ := head?_eq_some_iff.mp hbrace
        refine ⟨rest, ?_⟩
        rw [← hrest, prefix_iff_eq_append.mp <| takeWhile_prefix isWord]
      · cases h
  · rintro ⟨hname, rest, rfl⟩
    have hbrace : Avoids isWord (.scalar '\x7d' :: rest) := avoids_cons (by decide)
    have hempty : ¬ word.isEmpty = true := by simpa using hname.nonempty
    unfold placeholder?
    simp only [takeWhile_run hname.chars hbrace, drop_left, if_neg hempty]
    rfl

theorem exists_splits (m : Text) : ∃ pieces, Splits m pieces := by
  induction hn : m.length using Nat.strong_induction_on generalizing m with
  | _ n ih =>
    cases m with
    | nil => exact ⟨[], .nil⟩
    | cons c s =>
      by_cases h : c = '\x7b' ∧ ∃ word, placeholder? s = some word
      · obtain ⟨rfl, word, hword⟩ := h
        obtain ⟨hname, rest, rfl⟩ := placeholder?_eq_some_iff.mp hword
        obtain ⟨pieces, hp⟩ := ih rest.length (by simp at hn; omega) rest rfl
        exact ⟨_, .hole hname hp⟩
      · obtain ⟨pieces, hp⟩ := ih s.length (by simp at hn; omega) s rfl
        refine ⟨_, .char (fun hc => ?_) hp⟩
        by_contra hne
        exact h ⟨hc, Option.ne_none_iff_exists'.mp hne⟩

/-! ### Words and special characters -/

theorem isSpecial_of_isWord (h : isWord c = true) : isSpecial c = false := by
  have hall : ∀ d ∈ ("()[]\x7b\x7d?*+-|^$\\.&~# \t\n\r\x0b\x0c" : Text), isWord d = false := by decide
  by_contra hs
  rw [Bool.not_eq_false, isSpecial, contains_iff_mem] at hs
  rw [hall c hs] at h
  cases h

theorem escapeRegex_of_isWord (h : ∀ c ∈ s, isWord c = true) : escapeRegex s = s := by
  induction s with
  | nil => rfl
  | cons c s ih =>
    have hc : isSpecial c = false := isSpecial_of_isWord (h c mem_cons_self)
    rw [escapeRegex, flatMap_cons, ← escapeRegex, ih fun d hd => h d (mem_cons_of_mem _ hd),
      escapeRegexChar, if_neg (by rw [hc]; exact Bool.false_ne_true)]
    rfl

theorem IsName.not_mem (h : IsName word) (hc : isWord c = false) : c ∉ word := by
  intro hm
  rw [h.chars c hm] at hc
  cases hc

/-! ### What the placeholders are -/

theorem placeholders_append (h : CodePoint.scalar '\x7b' ∉ u) (s : Text) : placeholders (u ++ s) = placeholders s := by
  induction u with
  | nil => rfl
  | cons c u ih =>
    rw [mem_cons, not_or] at h
    have hc : ¬ c = '\x7b' := fun hc => h.1 hc.symm
    rw [cons_append, placeholders, if_neg hc]
    exact ih h.2

theorem Splits.placeholders (h : Splits m pieces) : placeholders m = pieces.filterMap Piece.word? := by
  induction h with
  | nil => rfl
  | @hole word s pieces hw _ ih =>
    have hfound : placeholder? (word ++ .scalar '\x7d' :: s) = some word :=
      placeholder?_eq_some_iff.mpr ⟨hw, s, rfl⟩
    have hskip : Script.placeholders (word ++ .scalar '\x7d' :: s) = Script.placeholders s := by
      rw [append_cons]
      refine placeholders_append ?_ s
      rw [mem_append, mem_singleton, not_or]
      exact ⟨hw.not_mem (by decide), by decide⟩
    rw [Script.placeholders, if_pos rfl, hfound]
    simp only [hskip, ih]
    rfl
  | @char c s pieces hc _ ih =>
    have hnone : (if c = '\x7b' then placeholder? s else none) = none := by
      split
      · next h => exact hc h
      · rfl
    rw [Script.placeholders, hnone]
    exact ih

/-! ### One pass -/

def Piece.after (words : List Text) : Piece → Text
  | char c => escapeRegexChar c
  | hole word => if word ∈ words then capture else escapedPlaceholder word

def passed (words : List Text) (pieces : List Piece) : Text := pieces.flatMap (Piece.after words)

theorem passed_cons (words : List Text) (p : Piece) (pieces : List Piece) :
    passed words (p :: pieces) = p.after words ++ passed words pieces := flatMap_cons

theorem escapeRegexChar_of_special (h : isSpecial c = true) : escapeRegexChar c = [.scalar '\\', c] :=
  if_pos h

theorem escapeRegexChar_of_not_special (h : ¬ isSpecial c = true) : escapeRegexChar c = [c] :=
  if_neg h

theorem Splits.escapeRegex (h : Splits m pieces) : escapeRegex m = passed [] pieces := by
  induction h with
  | nil => rfl
  | @hole word s pieces hw _ ih =>
    have hword : (word ++ .scalar '\x7d' :: s).flatMap escapeRegexChar
        = word ++ (escapeRegexChar '\x7d' ++ s.flatMap escapeRegexChar) := by
      rw [flatMap_append, flatMap_cons]
      exact congrArg (· ++ _) (escapeRegex_of_isWord hw.chars)
    rw [passed_cons, ← ih, Script.escapeRegex, Script.escapeRegex, flatMap_cons, hword]
    simp [Piece.after, escapedPlaceholder, escapeRegexChar_of_special (show isSpecial '\x7b' = true by decide),
      escapeRegexChar_of_special (show isSpecial '\x7d' = true by decide), ofString]
  | @char c s pieces _ _ ih =>
    rw [passed_cons, ← ih, Script.escapeRegex, flatMap_cons]
    rfl

theorem head?_passed_ne (words : List Text) (pieces : List Piece) :
    (passed words pieces).head? ≠ some (.scalar '\x7b') := by
  cases pieces with
  | nil => exact nofun
  | cons p pieces =>
    rw [passed_cons]
    cases p with
    | char c =>
      by_cases hc : isSpecial c = true
      · rw [Piece.after, escapeRegexChar_of_special hc]
        exact fun h => by cases h
      · rw [Piece.after, escapeRegexChar_of_not_special hc]
        intro h
        cases h
        exact hc (by decide)
    | hole word =>
      rw [Piece.after]
      split
      · exact fun h => by cases h
      · exact fun h => by cases h

/-- Neither brackets nor backslashes come from characters of the match text other than by an escape, so any other
character after some passes stands in the match text. -/
theorem Splits.uncons (h : Splits m pieces)
    (hbracket : c ≠ '(') (hbackslash : c ≠ '\\') (hp : c :: u <+: passed words pieces) :
    ∃ s rest, m = c :: s ∧ Splits s rest ∧ u <+: passed words rest := by
  cases h with
  | nil => exact absurd hp (by simp [passed])
  | hole hv _ =>
    rw [passed_cons, Piece.after] at hp
    split at hp
    · exact absurd (cons_prefix_cons.mp hp).1 hbracket
    · exact absurd (cons_prefix_cons.mp hp).1 hbackslash
  | @char d s rest _ hs =>
    rw [passed_cons, Piece.after] at hp
    by_cases hspecial : isSpecial d = true
    · rw [escapeRegexChar_of_special hspecial] at hp
      exact absurd (cons_prefix_cons.mp hp).1 hbackslash
    · rw [escapeRegexChar_of_not_special hspecial] at hp
      obtain ⟨rfl, hu⟩ := cons_prefix_cons.mp hp
      exact ⟨s, rest, rfl, hs, hu⟩

/-- An escaped closing brace after some passes stands in the match text. -/
theorem Splits.uncons_brace (h : Splits m pieces)
    (hp : [.scalar '\\', .scalar '\x7d'] <+: passed words pieces) : [.scalar '\x7d'] <+: m := by
  cases h with
  | nil => exact absurd hp (by simp [passed])
  | hole hv _ =>
    exfalso
    rw [passed_cons, Piece.after] at hp
    split at hp
    · cases (cons_prefix_cons.mp hp).1
    · cases (cons_prefix_cons.mp (cons_prefix_cons.mp hp).2).1
  | @char c s _ _ _ =>
    rw [passed_cons, Piece.after] at hp
    by_cases hspecial : isSpecial c = true
    · rw [escapeRegexChar_of_special hspecial] at hp
      rw [← (cons_prefix_cons.mp (cons_prefix_cons.mp hp).2).1]
      exact prefix_append [_] s
    · rw [escapeRegexChar_of_not_special hspecial] at hp
      rw [← (cons_prefix_cons.mp hp).1] at hspecial
      exact absurd (by decide) hspecial

/-- What looks like the rest of a placeholder after some passes was one in the match text. -/
theorem Splits.prefix_of_passed (hw : ∀ c ∈ word, isWord c = true) :
    ∀ {m : Text} {pieces : List Piece}, Splits m pieces →
      word ++ [.scalar '\\', .scalar '\x7d'] <+: passed words pieces → word ++ [.scalar '\x7d'] <+: m := by
  induction word with
  | nil =>
    intro m pieces h hp
    exact h.uncons_brace hp
  | cons c word ih =>
    intro m pieces h hp
    have hne : ∀ d : CodePoint, isWord d = false → c ≠ d := by
      rintro d hd rfl
      rw [hw c mem_cons_self] at hd
      cases hd
    obtain ⟨s, rest, rfl, hs, hrest⟩ := h.uncons (hne _ (by decide)) (hne _ (by decide)) hp
    exact cons_prefix_cons.mpr ⟨rfl, ih (fun d hd => hw d (mem_cons_of_mem _ hd)) hs hrest⟩

theorem escapedPlaceholder_eq (word : Text) : escapedPlaceholder word
    = .scalar '\\' :: .scalar '\x7b' :: (word ++ [.scalar '\\', .scalar '\x7d']) := by
  simp [escapedPlaceholder, ofString]

theorem IsName.eq_of_begins {rest : Text} (hw : IsName word) (hv : IsName v)
    (h : word ++ [.scalar '\\', .scalar '\x7d'] <+: v ++ .scalar '\\' :: rest) : word = v := by
  obtain ⟨t, ht⟩ := h
  have hbackslash : ∀ s : Text, Avoids isWord (.scalar '\\' :: s) := fun s => avoids_cons (by decide)
  rw [append_assoc, cons_append] at ht
  have htake := congrArg (List.takeWhile isWord) ht
  rwa [takeWhile_run hv.chars (hbackslash _), takeWhile_run hw.chars (hbackslash _)] at htake

theorem replaceAll_hole (hw : IsName word) (hv : IsName v) (hne : word ≠ v) (rest : Text) :
    replaceAll (escapedPlaceholder word) capture (escapedPlaceholder v ++ rest)
      = escapedPlaceholder v ++ replaceAll (escapedPlaceholder word) capture rest := by
  have hinner : CodePoint.scalar '\\' ∉ .scalar '\x7b' :: v := by
    rw [mem_cons, not_or]
    exact ⟨by decide, hv.not_mem (by decide)⟩
  have hsplit : escapedPlaceholder v ++ rest = .scalar '\\' ::
      ((.scalar '\x7b' :: v) ++ .scalar '\\' :: .scalar '\x7d' :: rest) := by
    rw [escapedPlaceholder_eq]
    simp
  have hopen : ¬ escapedPlaceholder word <+: escapedPlaceholder v ++ rest := by
    intro hp
    rw [escapedPlaceholder_eq, hsplit] at hp
    exact hne (hw.eq_of_begins hv (cons_prefix_cons.mp (cons_prefix_cons.mp hp).2).2)
  have hclose : ¬ escapedPlaceholder word <+: .scalar '\\' :: .scalar '\x7d' :: rest := by
    intro hp
    rw [escapedPlaceholder_eq] at hp
    cases (cons_prefix_cons.mp (cons_prefix_cons.mp hp).2).1
  have hbrace : ¬ escapedPlaceholder word <+: .scalar '\x7d' :: rest := by
    intro hp
    rw [escapedPlaceholder_eq] at hp
    cases (cons_prefix_cons.mp hp).1
  rw [hsplit] at hopen ⊢
  rw [replaceAll_cons hopen, escapedPlaceholder_eq word, replaceAll_append_of_not_mem hinner,
    ← escapedPlaceholder_eq word, replaceAll_cons hclose, replaceAll_cons hbrace, escapedPlaceholder_eq v]
  simp

/-- **A pass** replaces the placeholders of its word and nothing else. -/
theorem Splits.replaceAll_passed (h : Splits m pieces)
    (hw : IsName word) (words : List Text) :
    replaceAll (escapedPlaceholder word) capture (passed words pieces) = passed (word :: words) pieces := by
  induction h with
  | nil => rfl
  | @hole v s pieces hv _ ih =>
    rw [passed_cons, passed_cons, ← ih, Piece.after, Piece.after]
    by_cases hwords : v ∈ words
    · rw [if_pos hwords, if_pos (mem_cons_of_mem _ hwords), escapedPlaceholder_eq,
        replaceAll_append_of_not_mem (by decide)]
    · rw [if_neg hwords]
      by_cases hword : v = word
      · rw [if_pos (by rw [hword]; exact mem_cons_self), hword, escapedPlaceholder_eq, replaceAll_append_self]
      · have hnot : v ∉ word :: words := by
          rw [mem_cons, not_or]
          exact ⟨hword, hwords⟩
        rw [if_neg hnot, replaceAll_hole hw hv fun he => hword he.symm]
  | @char c s pieces hc hs ih =>
    rw [passed_cons, passed_cons, ← ih, Piece.after, Piece.after]
    by_cases hspecial : isSpecial c = true
    · have hopen : ¬ escapedPlaceholder word <+: .scalar '\\' :: c :: passed words pieces := by
        intro hp
        rw [escapedPlaceholder_eq] at hp
        obtain ⟨hbrace, hrest⟩ := cons_prefix_cons.mp (cons_prefix_cons.mp hp).2
        obtain ⟨rest, hrest⟩ := Splits.prefix_of_passed hw.chars hs hrest
        rw [append_assoc] at hrest
        have hfound := placeholder?_eq_some_iff.mpr ⟨hw, rest, hrest.symm⟩
        rw [hc hbrace.symm] at hfound
        cases hfound
      have hnext : ¬ escapedPlaceholder word <+: c :: passed words pieces := by
        intro hp
        rw [escapedPlaceholder_eq] at hp
        obtain ⟨t, ht⟩ := (cons_prefix_cons.mp hp).2
        exact head?_passed_ne words pieces (by rw [← ht]; rfl)
      rw [escapeRegexChar_of_special hspecial]
      show replaceAll _ _ (.scalar '\\' :: c :: passed words pieces) = _
      rw [replaceAll_cons hopen, replaceAll_cons hnext]
      rfl
    · have hbackslash : CodePoint.scalar '\\' ∉ [c] := by
        rw [mem_singleton]
        rintro rfl
        exact hspecial (by decide)
      rw [escapeRegexChar_of_not_special hspecial, escapedPlaceholder_eq, replaceAll_append_of_not_mem hbackslash]

/-! ### All passes -/

theorem Splits.openGroups_passed (h : Splits m pieces)
    (hwords : ∀ w ∈ words, IsName w) : ∀ done : List Text,
    openGroups (passed done pieces) words = passed (words.reverse ++ done) pieces := by
  induction words with
  | nil => exact fun _ => rfl
  | cons w words ih =>
    intro done
    rw [openGroups, foldl_cons, h.replaceAll_passed (hwords w mem_cons_self), ← openGroups,
      ih fun v hv => hwords v (mem_cons_of_mem _ hv)]
    simp

theorem Splits.isName (h : Splits m pieces) : ∀ w ∈ Script.placeholders m, IsName w := by
  rw [h.placeholders]
  induction h with
  | nil => exact nofun
  | hole hw _ ih => exact forall_mem_cons.mpr ⟨hw, ih⟩
  | char _ _ ih => exact ih

/-- After the passes for all words, every placeholder is a group. -/
theorem passed_eq_pattern
    (h : ∀ w ∈ pieces.filterMap Piece.word?, w ∈ words) : passed words pieces = pieces.flatMap Piece.pattern := by
  induction pieces with
  | nil => rfl
  | cons p pieces ih =>
    rw [passed_cons, flatMap_cons]
    cases p with
    | char c => exact congrArg (escapeRegexChar c ++ ·) (ih h)
    | hole w =>
      have hmem := h w mem_cons_self
      rw [ih fun v hv => h v (mem_cons_of_mem _ hv), Piece.after, if_pos hmem]
      rfl

/-- **The regular expression of a match text**, piece by piece. -/
theorem matchPattern_eq (hm : m.head? ≠ some (.scalar '^')) (h : Splits m pieces) :
    matchPattern m = "^" ++ pieces.flatMap Piece.pattern ++ "$" := by
  have htext : matchPattern m = "^" ++ openGroups (escapeRegex m) (placeholders m) ++ "$" := if_neg hm
  rw [htext, h.escapeRegex, h.openGroups_passed h.isName, append_nil, passed_eq_pattern]
  intro w hw
  rw [mem_reverse, h.placeholders]
  exact hw

end PluginKit.Script
