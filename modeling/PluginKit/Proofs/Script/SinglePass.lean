import Mathlib.Data.List.Infix
import PluginKit.Proofs.Script.Groups

/-!
# Match texts in a single pass

The regular expression of a match text is made by escaping the whole text and then replacing the escaped placeholders,
word by word. One scan from left to right gives the same (`translate`): a placeholder becomes a group, and any other
character is escaped. The order in which the words are replaced, and how often, is of no account, and there are as many
groups as places at which a placeholder begins (`matchPattern_single_pass`).
-/

namespace PluginKit.Script

open Text List

/-! ### Placeholders and where they stand -/

def inBraces (word : Text) : Text := .scalar '\x7b' :: (word ++ [.scalar '\x7d'])

def beginsPlaceholder : Text → Bool
  | [] => false
  | c :: s => c = '\x7b' && (placeholder? s).isSome

theorem placeholders_cons (c : CodePoint) (s : Text) :
    placeholders (c :: s) = (if c = '\x7b' then placeholder? s else none).toList ++ placeholders s := by
  rw [placeholders]
  split
  · next word h => rw [h, Option.toList_some, singleton_append]
  · next h => rw [h, Option.toList_none, nil_append]

theorem inBraces_prefix_cons {word : Text} {c : CodePoint} {s : Text} (hw : IsName word) :
    inBraces word <+: c :: s ↔ c = '\x7b' ∧ placeholder? s = some word := by
  rw [inBraces, cons_prefix_cons, placeholder?_eq_some_iff, and_iff_right hw]
  refine and_congr eq_comm ?_
  constructor
  · rintro ⟨rest, rfl⟩
    exact ⟨rest, by rw [append_assoc, singleton_append]⟩
  · rintro ⟨rest, rfl⟩
    exact ⟨rest, by rw [append_assoc, singleton_append]⟩

theorem IsName.mem_placeholders {word : Text} (hw : IsName word) (m : Text) :
    word ∈ placeholders m ↔ inBraces word <:+: m := by
  induction m with
  | nil => exact iff_of_false not_mem_nil fun h => by cases eq_nil_of_infix_nil h
  | cons c s ih =>
    rw [placeholders_cons, mem_append, Option.mem_toList, ih, infix_cons_iff, inBraces_prefix_cons hw]
    refine or_congr_left ?_
    split
    · next hc => rw [and_iff_right hc]
    · next hc => exact iff_of_false (fun h => by cases h) fun h => hc h.1

theorem mem_placeholders_iff {m word : Text} : word ∈ placeholders m ↔ IsName word ∧ inBraces word <:+: m := by
  constructor
  · intro h
    obtain ⟨pieces, hpieces⟩ := exists_splits m
    have hname := hpieces.isName word h
    exact ⟨hname, (hname.mem_placeholders m).mp h⟩
  · rintro ⟨hname, h⟩
    exact (hname.mem_placeholders m).mpr h

/-- There are as many placeholders as places at which one begins. -/
theorem length_placeholders (m : Text) : (placeholders m).length = m.tails.countP beginsPlaceholder := by
  induction m with
  | nil => rfl
  | cons c s ih =>
    rw [placeholders_cons, length_append, ih, tails_cons, countP_cons, beginsPlaceholder, add_comm]
    congr 1
    by_cases hc : c = '\x7b'
    · rw [if_pos hc]
      cases hp : placeholder? s with
      | none => simp
      | some word => simp [hc]
    · simp [hc]

/-! ### The scan -/

/-- The regular expression of a text without its frame, where so many characters at the beginning belong to a
placeholder that has become a group already. -/
def translateFrom : Nat → Text → Text
  | _, [] => []
  | skip + 1, _ :: s => translateFrom skip s
  | 0, c :: s =>
    match (if c = '\x7b' then placeholder? s else none) with
    | some word => capture ++ translateFrom (word.length + 1) s
    | none => escapeRegexChar c ++ translateFrom 0 s

/-- **One scan of a match text**: each placeholder becomes a group, each other character is escaped. -/
def translate (m : Text) : Text := translateFrom 0 m

theorem translateFrom_append (u s : Text) : translateFrom u.length (u ++ s) = translate s := by
  induction u with
  | nil => rfl
  | cons c u ih => exact ih

theorem Splits.translate {m : Text} {pieces : List Piece} (h : Splits m pieces) :
    translate m = pieces.flatMap Piece.pattern := by
  induction h with
  | nil => rfl
  | @hole word s pieces hw _ ih =>
    have hfound : placeholder? (word ++ .scalar '\x7d' :: s) = some word :=
      placeholder?_eq_some_iff.mpr ⟨hw, s, rfl⟩
    have hskip : translateFrom (word.length + 1) (word ++ .scalar '\x7d' :: s) = Script.translate s := by
      rw [append_cons, ← translateFrom_append (word ++ [.scalar '\x7d']), length_append]
      rfl
    rw [Script.translate, translateFrom, if_pos rfl, hfound]
    simp only [hskip, ih]
    rfl
  | @char c s pieces hc _ ih =>
    have hnone : (if c = '\x7b' then placeholder? s else none) = none := by
      split
      · next h => exact hc h
      · rfl
    rw [Script.translate, translateFrom, hnone]
    exact congrArg (escapeRegexChar c ++ ·) ih

/-- **Replacing the words of the placeholders**, in any order and each as often as one likes, comes to one scan. -/
theorem openGroups_escapeRegex {m : Text} {words : List Text} (hwords : ∀ w, w ∈ words ↔ w ∈ placeholders m) :
    openGroups (escapeRegex m) words = translate m := by
  obtain ⟨pieces, h⟩ := exists_splits m
  rw [h.translate, h.escapeRegex, h.openGroups_passed fun w hw => h.isName w ((hwords w).mp hw), append_nil,
    passed_eq_pattern]
  intro w hw
  rw [mem_reverse, hwords, h.placeholders]
  exact hw

/-- **The regular expression of a match text** that is none itself is that of one scan, whatever the order in which
the words of its placeholders are replaced, and it has a group for each place at which a placeholder begins. -/
theorem matchPattern_single_pass {m : Text} (hm : m.head? ≠ some (.scalar '^')) :
    matchPattern m = "^" ++ translate m ++ "$" ∧
      (∀ words, (∀ w, w ∈ words ↔ w ∈ placeholders m) → openGroups (escapeRegex m) words = translate m) ∧
      (groups (matchPattern m)).length = m.tails.countP beginsPlaceholder := by
  have htext : matchPattern m = "^" ++ openGroups (escapeRegex m) (placeholders m) ++ "$" := if_neg hm
  refine ⟨?_, fun words hwords => openGroups_escapeRegex hwords, ?_⟩
  · rw [htext, openGroups_escapeRegex fun w => Iff.rfl]
  · rw [groups_matchPattern hm, List.length_map, length_placeholders]

/-- A match text in which a word comes twice, behind a backslash and as the beginning of another one, and in which
there are braces around a placeholder. -/
def tangledMatch : Text := "\x7bx\x7d\\\x7bx\x7d\x7b\x7bxy\x7d\x7d\x7b\x7d."

theorem tangledMatch_single_pass :
    tangledMatch.head? ≠ some (.scalar '^') ∧
      matchPattern tangledMatch = "^(.+)\\\\(.+)\\\x7b(.+)\\\x7d\\\x7b\\\x7d\\.$" ∧
      openGroups (escapeRegex tangledMatch) ["xy", "x"] = translate tangledMatch ∧
      (groups (matchPattern tangledMatch)).length = 3 := by
  have hm : tangledMatch.head? ≠ some (.scalar '^') := by decide
  have hwords : placeholders tangledMatch = ["x", "x", "xy"] := by decide
  obtain ⟨hpattern, hloop, hgroups⟩ := matchPattern_single_pass hm
  refine ⟨hm, ?_, hloop _ fun w => ?_, ?_⟩
  · rw [hpattern]
    decide
  · rw [hwords]
    simp [or_comm]
  · rw [hgroups]
    decide

end PluginKit.Script
