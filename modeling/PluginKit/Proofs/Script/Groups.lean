import PluginKit.Proofs.Script.Translate
import PluginKit.Text.Scan

/-!
# Capture groups

The capture groups of a regular expression, in their order and with their names. The regular expression of a match
text has one group for every placeholder, but none of them has a name (`groups_matchPattern`), so that nothing can be
found by the name of a placeholder in what was matched (`readGroup_matchPattern`).
-/

namespace PluginKit.Script

open Text

/-! ### Groups of a regular expression -/

/-- Where a scan of a regular expression is: in its text, in a character class, or behind a backslash in one of
them. -/
inductive Place where
  | text
  | escaped
  | classStart
  | classFirst
  | inClass
  | escapedInClass
  deriving DecidableEq

def Place.next (c : CodePoint) : Place → Place
  | text => if c = '\\' then escaped else if c = '[' then classStart else text
  | escaped => text
  | classStart => if c = '\\' then escapedInClass else if c = '^' then classFirst else inClass
  | classFirst => if c = '\\' then escapedInClass else inClass
  | inClass => if c = '\\' then escapedInClass else if c = ']' then text else inClass
  | escapedInClass => inClass

/-- The capture group that an opening bracket begins, by what follows it: one with a name, one without, or none. -/
def groupAt? (rest : Text) : Option (Option Text) :=
  match after "?P<" rest with
  | some s => some (some (s.takeWhile (· != .scalar '>')))
  | none => if rest.head? = some (.scalar '?') then none else some none

def groupsFrom : Place → Text → List (Option Text)
  | _, [] => []
  | place, c :: s =>
    (if place = .text ∧ c = '(' then (groupAt? s).toList else []) ++ groupsFrom (place.next c) s

/-- The names of the capture groups of a regular expression. -/
def groups (pattern : Text) : List (Option Text) := groupsFrom .text pattern

/-- The groups with a name after a match, given the texts that all groups captured. -/
def matchedGroups (pattern : Text) (captured : List Text) : List (Text × Text) :=
  ((groups pattern).zip captured).filterMap fun g => g.1.map fun name => (name, g.2)

def readGroup (matched : List (Text × Text)) (name : Text) : Text :=
  ((matched.find? (·.1 == name)).map (·.2)).getD []

-- brackets that are escaped, in a character class or opened by `(?:` are no groups
example : groups "(?P<city>.+)\\([(](?:a|(b))" = [some ("city" : Text), none] := by decide +kernel

example : readGroup (matchedGroups "(.)(?P<city>.+)" ["x", "y"]) "city" = "y" := by decide +kernel

/-! ### Groups of a match text -/

theorem groupsFrom_text {c : CodePoint} (hb : c ≠ '\\') (hc : c ≠ '[') (hg : c ≠ '(') (s : Text) :
    groupsFrom .text (c :: s) = groupsFrom .text s := by
  rw [groupsFrom, if_neg fun h => hg h.2, Place.next, if_neg hb, if_neg hc]
  rfl

theorem groupsFrom_escaped (c : CodePoint) (s : Text) :
    groupsFrom .text (.scalar '\\' :: c :: s) = groupsFrom .text s := by
  rw [groupsFrom, if_neg (by decide)]
  show [] ++ groupsFrom .escaped (c :: s) = _
  rw [groupsFrom, if_neg (by rintro ⟨h, -⟩; cases h)]
  rfl

theorem groupsFrom_char (c : CodePoint) (s : Text) :
    groupsFrom .text (escapeRegexChar c ++ s) = groupsFrom .text s := by
  by_cases h : isSpecial c = true
  · rw [escapeRegexChar_of_special h]
    exact groupsFrom_escaped c s
  · rw [escapeRegexChar_of_not_special h]
    have hne : ∀ d : CodePoint, isSpecial d = true → c ≠ d := by
      rintro d hd rfl
      exact h hd
    exact groupsFrom_text (hne _ (by decide)) (hne _ (by decide)) (hne _ (by decide)) s

theorem groupsFrom_capture (s : Text) : groupsFrom .text (capture ++ s) = none :: groupsFrom .text s := by
  have hdot := groupsFrom_text (c := .scalar '.') (by decide) (by decide) (by decide) (.scalar '+' :: .scalar ')' :: s)
  have hplus := groupsFrom_text (c := .scalar '+') (by decide) (by decide) (by decide) (.scalar ')' :: s)
  have hclose := groupsFrom_text (c := .scalar ')') (by decide) (by decide) (by decide) s
  show groupsFrom .text (.scalar '(' :: .scalar '.' :: .scalar '+' :: .scalar ')' :: s) = _
  rw [groupsFrom, if_pos ⟨rfl, rfl⟩]
  show [none] ++ groupsFrom .text (.scalar '.' :: .scalar '+' :: .scalar ')' :: s) = _
  rw [hdot, hplus, hclose]
  rfl

/-- Every piece that is a placeholder begins one group without a name. -/
theorem groupsFrom_pieces (pieces : List Piece) (s : Text) :
    groupsFrom .text (pieces.flatMap Piece.pattern ++ s)
      = (pieces.filterMap Piece.word?).map (fun _ => none) ++ groupsFrom .text s := by
  induction pieces with
  | nil => rfl
  | cons p pieces ih =>
    rw [List.flatMap_cons, List.append_assoc]
    cases p with
    | char c => exact (groupsFrom_char c _).trans ih
    | hole word =>
      rw [Piece.pattern, groupsFrom_capture, ih]
      rfl

/-- **The groups of a match text**: one for every placeholder, without names. -/
theorem groups_matchPattern {m : Text} (hm : m.head? ≠ some (.scalar '^')) :
    groups (matchPattern m) = (placeholders m).map fun _ => none := by
  obtain ⟨pieces, h⟩ := exists_splits m
  have hstart := groupsFrom_text (c := .scalar '^') (by decide) (by decide) (by decide)
    (pieces.flatMap Piece.pattern ++ ("$" : Text))
  have hend : groupsFrom .text ("$" : Text) = [] := by decide
  rw [groups, matchPattern_eq hm h, List.append_assoc]
  show groupsFrom .text (.scalar '^' :: (pieces.flatMap Piece.pattern ++ ("$" : Text))) = _
  rw [hstart, groupsFrom_pieces, hend, List.append_nil, h.placeholders]

theorem readGroup_matchPattern {m : Text} (hm : m.head? ≠ some (.scalar '^')) (captured : List Text) (name : Text) :
    readGroup (matchedGroups (matchPattern m) captured) name = [] := by
  have hnone : matchedGroups (matchPattern m) captured = [] := by
    rw [matchedGroups, groups_matchPattern hm, List.filterMap_eq_nil_iff]
    intro g hg
    obtain ⟨w, -, hw⟩ := List.mem_map.mp (List.of_mem_zip hg).1
    rw [← hw]
    rfl
  rw [hnone]
  rfl

end PluginKit.Script
