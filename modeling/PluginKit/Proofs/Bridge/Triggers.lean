import PluginKit.Proofs.Bridge.Patterns
import PluginKit.Proofs.Script.Instances

/-!
# What a text between quotes answers

A reply and a command can be given a text between quotes instead of a regular expression. Three patterns are made of it:
the registrar's, which that text alone matches (`found_exact_iff`), the one that is reported for a reply, which every
message matches that the text stands in (`found_escaped_iff`), and the one that is reported for a command, which is the
text itself, taken for a regular expression. So neither of the two reported ones agrees with the registrar's
(`Phrase.triggers`).
-/

namespace PluginKit.Bridge

open Text Script Registrar
open List hiding after

/-! ### Regular expressions with repetitions -/

/-- How often a part of a regular expression stands in a message. -/
inductive Times where
  | once
  | optional
  | always
  | several
  deriving DecidableEq

def Times.Allows : Times → Nat → Prop
  | once, n => n = 1
  | optional, n => n ≤ 1
  | always, _ => True
  | several, n => n ≠ 0

/-- A part of a regular expression that has no groups, classes and alternatives. -/
inductive Part where
  | start
  /-- The end of the message, or the place before a line feed that ends it. -/
  | stop
  /-- A character, or any but a line feed. -/
  | chars (only : Option CodePoint) (times : Times)
  deriving DecidableEq

/-- The mark at the beginning of a text that says how often the part before it stands in a message. -/
def leadingTimes : Text → Option Times
  | .scalar '?' :: _ => some .optional
  | .scalar '*' :: _ => some .always
  | .scalar '+' :: _ => some .several
  | _ => none

def charsPart (only : Option CodePoint) (s : Text) : Part := .chars only ((leadingTimes s).getD .once)

/-- The parts of a regular expression, if it has no others than these; `repeatable` says that a mark may stand at its
beginning, which has been read. -/
def readParts : Bool → Text → Option (List Part)
  | _, [] => some []
  | repeatable, c :: s =>
    if repeatable && (leadingTimes (c :: s)).isSome then readParts false s
    else if c = '\\' then
      match s with
      | [] => none
      | d :: rest => if isLetterOrDigit d then none else (readParts true rest).map (charsPart (some d) rest :: ·)
    else if c = '^' then (readParts false s).map (.start :: ·)
    else if c = '$' then (readParts false s).map (.stop :: ·)
    else if c = '.' then (readParts true s).map (charsPart none s :: ·)
    else if isOperator c then none
    else (readParts true s).map (charsPart (some c) s :: ·)

/-- The parts match a message, given by what stands before the place at which they begin and what stands behind it. -/
def PartsRun : List Part → Text → Text → Prop
  | [], _, _ => True
  | .start :: parts, before, after => before = [] ∧ PartsRun parts before after
  | .stop :: parts, before, after => (after = [] ∨ after = [.scalar '\n']) ∧ PartsRun parts before after
  | .chars only times :: parts, before, after => ∃ x rest, after = x ++ rest ∧ times.Allows x.length ∧
      (∀ c ∈ x, only.elim (c ≠ .scalar '\n') (c = ·)) ∧ PartsRun parts (before ++ x) rest

/-- The regular expression is found somewhere in the message. -/
def Found (pattern message : Text) : Prop :=
  ∃ parts before after, readParts false pattern = some parts ∧ message = before ++ after ∧ PartsRun parts before after

example : readParts false "^a+\\.$" = some [.start, .chars (some 'a') .several, .chars (some '.') .once, .stop] := by
  decide +kernel
-- a mark behind no part, and a group
example : readParts false "+a" = none ∧ readParts false "(a)" = none := by decide +kernel

/-! ### Regular expressions for a text alone -/

/-- Each character of the text is made a regular expression for it alone. -/
def Escapes (escape : CodePoint → Text) (s : Text) : Prop :=
  ∀ c ∈ s, escape c = [c] ∧ isOperator c = false ∨ escape c = [.scalar '\\', c] ∧ isLetterOrDigit c = false

def literal (c : CodePoint) : Part := .chars (some c) .once

theorem isOperator_eq_false_iff {c : CodePoint} : isOperator c = false ↔ c ∉ (".^$*+?\x7b\x7d[]\\|()" : Text) := by
  rw [← Bool.not_eq_true, isOperator, contains_iff_mem]

theorem ne_of_isOperator {c d : CodePoint} (h : isOperator c = false) (hd : isOperator d = true) : c ≠ d := by
  rintro rfl
  rw [h] at hd
  cases hd

theorem leadingTimes_of_ne {c : CodePoint} (h : c ∉ ("?*+" : Text)) (s : Text) : leadingTimes (c :: s) = none := by
  unfold leadingTimes
  split
  · next he => cases he; exact absurd (by decide) h
  · next he => cases he; exact absurd (by decide) h
  · next he => cases he; exact absurd (by decide) h
  · rfl

theorem leadingTimes_of_isOperator {c : CodePoint} (h : isOperator c = false) (s : Text) :
    leadingTimes (c :: s) = none := by
  have hall : ∀ d ∈ ("?*+" : Text), isOperator d = true := by decide
  exact leadingTimes_of_ne (fun hmem => ne_of_isOperator h (hall c hmem) rfl) s

theorem readParts_of_leadingTimes {s : Text} (h : leadingTimes s = none) (r : Bool) :
    readParts r s = readParts false s := by
  cases s with
  | nil => cases r <;> rfl
  | cons c s =>
    rw [readParts.eq_def, readParts.eq_def false]
    simp only [h, Option.isSome_none, Bool.and_false, Bool.false_eq_true, if_false]

theorem readParts_char {c : CodePoint} (h : isOperator c = false) (r : Bool) (s : Text) :
    readParts r (c :: s) = (readParts true s).map (charsPart (some c) s :: ·) := by
  have hne {d : CodePoint} (hd : isOperator d = true) : ¬ c = d := ne_of_isOperator h hd
  rw [readParts_of_leadingTimes (leadingTimes_of_isOperator h s), readParts.eq_def]
  simp only [Bool.false_and, Bool.false_eq_true, if_false, if_neg (hne (d := .scalar '\\') rfl), h,
    if_neg (hne (d := .scalar '^') rfl), if_neg (hne (d := .scalar '$') rfl), if_neg (hne (d := .scalar '.') rfl)]

theorem readParts_backslash {c : CodePoint} (h : isLetterOrDigit c = false) (r : Bool) (s : Text) :
    readParts r (.scalar '\\' :: c :: s) = (readParts true s).map (charsPart (some c) s :: ·) := by
  rw [readParts_of_leadingTimes (leadingTimes_of_ne (by decide) _), readParts.eq_def]
  simp only [Bool.false_and, Bool.false_eq_true, if_false, if_true, h]

section
variable {escape : CodePoint → Text} {s t : Text} (ht : leadingTimes t = none)
include ht

theorem leadingTimes_escaped (hs : Escapes escape s) : leadingTimes (s.flatMap escape ++ t) = none := by
  cases s with
  | nil => exact ht
  | cons c s =>
    rw [flatMap_cons, append_assoc]
    obtain ⟨hc, hop⟩ | ⟨hc, -⟩ := hs c mem_cons_self
    · rw [hc]
      exact leadingTimes_of_isOperator hop _
    · rw [hc]
      exact leadingTimes_of_ne (by decide) _

theorem readParts_escaped (hs : Escapes escape s) (r : Bool) :
    readParts r (s.flatMap escape ++ t) = (readParts false t).map (s.map literal ++ ·) := by
  induction s generalizing r with
  | nil =>
    rw [flatMap_nil, nil_append, readParts_of_leadingTimes ht]
    exact Option.map_id'.symm
  | cons c s ih =>
    have hrest : Escapes escape s := fun d hd => hs d (mem_cons_of_mem c hd)
    have hpart : charsPart (some c) (s.flatMap escape ++ t) = literal c := by
      rw [charsPart, leadingTimes_escaped ht hrest]
      rfl
    have hread : readParts r (escape c ++ (s.flatMap escape ++ t))
        = (readParts true (s.flatMap escape ++ t)).map (literal c :: ·) := by
      rw [← hpart]
      obtain ⟨hc, hop⟩ | ⟨hc, hletter⟩ := hs c mem_cons_self
      · rw [hc]
        exact readParts_char hop r _
      · rw [hc]
        exact readParts_backslash hletter r _
    rw [flatMap_cons, append_assoc, hread, ih hrest, Option.map_map]
    rfl

end

theorem partsRun_literal (s : Text) (parts : List Part) (before after : Text) :
    PartsRun (s.map literal ++ parts) before after ↔ ∃ rest, after = s ++ rest ∧ PartsRun parts (before ++ s) rest := by
  induction s generalizing before after with
  | nil => simp
  | cons c s ih =>
    constructor
    · rintro ⟨x, rest, rfl, hlength, hx, hrun⟩
      obtain ⟨d, rfl⟩ := length_eq_one_iff.mp hlength
      obtain rfl : d = c := hx d mem_cons_self
      obtain ⟨rest, rfl, hrun⟩ := (ih _ _).mp hrun
      exact ⟨rest, rfl, by rwa [append_cons]⟩
    · rintro ⟨rest, rfl, hrun⟩
      rw [append_cons] at hrun
      exact ⟨[c], s ++ rest, rfl, rfl, by simp, (ih _ _).mpr ⟨rest, rfl, hrun⟩⟩

/-- **An escaped text is found** in the messages that it stands in. -/
theorem found_escaped_iff {escape : CodePoint → Text} {s : Text} (hs : Escapes escape s) (m : Text) :
    Found (s.flatMap escape) m ↔ s <:+: m := by
  have hread := readParts_escaped (t := []) rfl hs false
  rw [append_nil] at hread
  constructor
  · rintro ⟨parts, before, after, hparts, rfl, hrun⟩
    cases hread.symm.trans hparts
    obtain ⟨rest, rfl, -⟩ := (partsRun_literal _ _ _ _).mp hrun
    exact ⟨before, rest, append_assoc _ _ _⟩
  · rintro ⟨before, rest, rfl⟩
    exact ⟨_, before, s ++ rest, hread, append_assoc _ _ _, (partsRun_literal _ _ _ _).mpr ⟨rest, rfl, trivial⟩⟩

/-- **An escaped text between the two ends is found** in itself alone, as far as messages of one line go. -/
theorem found_exact_iff {escape : CodePoint → Text} {s m : Text} (hs : Escapes escape s) (hm : .scalar '\n' ∉ m) :
    Found ("^" ++ s.flatMap escape ++ "$") m ↔ m = s := by
  have hread : readParts false ("^" ++ s.flatMap escape ++ "$") = some (.start :: (s.map literal ++ [.stop])) := by
    have hstop : readParts false "$" = some [.stop] := by decide
    have hrest := readParts_escaped (t := "$") (by decide) hs false
    rw [hstop] at hrest
    show readParts false (.scalar '^' :: (s.flatMap escape ++ "$")) = _
    rw [readParts.eq_def]
    simp only [Bool.false_and, Bool.false_eq_true, if_false, if_true, hrest]
    rfl
  constructor
  · rintro ⟨parts, before, after, hparts, rfl, hrun⟩
    cases hread.symm.trans hparts
    obtain ⟨rfl, hrun⟩ := hrun
    obtain ⟨rest, rfl, hend, -⟩ := (partsRun_literal _ _ _ _).mp hrun
    rcases hend with rfl | rfl
    · simp
    · exact absurd (by simp) hm
  · rintro rfl
    exact ⟨_, [], m, hread, rfl, rfl, (partsRun_literal _ _ _ _).mpr ⟨[], (append_nil m).symm, .inl rfl, trivial⟩⟩

theorem PartsRun.of_start_not_mem {parts : List Part} (h : .start ∉ parts) {before after : Text} (before' : Text)
    (hrun : PartsRun parts before after) : PartsRun parts before' after := by
  induction parts generalizing before before' after with
  | nil => exact trivial
  | cons p parts ih =>
    have hrest : Part.start ∉ parts := fun hmem => h (mem_cons_of_mem p hmem)
    cases p with
    | start => exact absurd mem_cons_self h
    | stop => exact ⟨hrun.1, ih hrest before' hrun.2⟩
    | chars only times =>
      obtain ⟨x, rest, hafter, hlength, hx, hrun⟩ := hrun
      exact ⟨x, rest, hafter, hlength, hx, ih hrest (before' ++ x) hrun⟩

/-- A regular expression that asks for no beginning is found with any text before the message as well. -/
theorem Found.append {pattern m : Text} {parts : List Part} (hread : readParts false pattern = some parts)
    (hstart : .start ∉ parts) (h : Found pattern m) (x : Text) : Found pattern (x ++ m) := by
  obtain ⟨_, before, after, hparts, rfl, hrun⟩ := h
  cases hread.symm.trans hparts
  exact ⟨parts, x ++ before, after, hread, (append_assoc _ _ _).symm, hrun.of_start_not_mem hstart _⟩

/-! ### The patterns of a text between quotes -/

/-- A text between quotes that is no regular expression and can stand in a reply and in a command. -/
structure Phrase (s : Text) : Prop where
  ne_nil : s ≠ []
  unquoted : Unquoted s
  plain : ∀ c ∈ s, c ∉ (",\n" : Text)
  head : ∀ c ∈ s.head?, c ∉ ("/^" : Text)

def quotedReply (s text : Text) : Text := "mai.reply(" ++ apostrophized s ++ ", " ++ apostrophized text ++ ")"

def quotedCommand (s : Text) : Text := "mai.command(" ++ apostrophized s ++ ", async (ctx) => \x7b\x7d)"

theorem escapes_escapeRegexChar (s : Text) : Escapes escapeRegexChar s := by
  intro c _
  by_cases h : Script.isSpecial c = true
  · have hall : ∀ d ∈ ("()[]\x7b\x7d?*+-|^$\\.&~# \t\n\r\x0b\x0c" : Text), isLetterOrDigit d = false := by decide
    exact .inr ⟨escapeRegexChar_of_special h, hall c (contains_iff_mem.mp h)⟩
  · have hall : ∀ d ∈ (".^$*+?\x7b\x7d[]\\|()" : Text), Script.isSpecial d = true := by decide
    exact .inl ⟨escapeRegexChar_of_not_special h, isOperator_eq_false_iff.mpr fun hmem => h (hall c hmem)⟩

def escapeExact (c : CodePoint) : Text := onlyIf (Registrar.isSpecial c) "\\" ++ [c]

theorem escapeExact_cases (c : CodePoint) : escapeExact c = [c] ∧ isOperator c = false ∨
    escapeExact c = [.scalar '\\', c] ∧ isLetterOrDigit c = false := by
  cases h : Registrar.isSpecial c with
  | false =>
    have hall : ∀ d ∈ (".^$*+?\x7b\x7d[]\\|()" : Text), Registrar.isSpecial d = true := by decide
    refine .inl ⟨by rw [escapeExact, h]; rfl, isOperator_eq_false_iff.mpr fun hmem => ?_⟩
    rw [hall c hmem] at h
    cases h
  | true =>
    have hall : ∀ d ∈ (".*+?^$\x7b\x7d()|[]\\" : Text), isLetterOrDigit d = false := by decide
    exact .inr ⟨by rw [escapeExact, h]; rfl, hall c (contains_iff_mem.mp h)⟩

theorem escapes_escapeExact (s : Text) : Escapes escapeExact s := fun c _ => escapeExact_cases c

/-- What the registrar makes of a text has nothing wrong with it. -/
theorem regexProblemFrom_exact (s : Text) (repeatable : Bool) :
    regexProblemFrom 0 (.item repeatable) 0 (s.flatMap escapeExact ++ "$") = none := by
  induction s generalizing repeatable with
  | nil => cases repeatable <;> decide
  | cons c s ih =>
    rw [flatMap_cons, append_assoc]
    obtain ⟨hc, hop⟩ | ⟨hc, -⟩ := escapeExact_cases c
    · have hstep : regexStep 0 (.item repeatable) c (s.flatMap escapeExact ++ "$") = .ok (0, .item true, 0) := by
        have hne {d : CodePoint} (hd : isOperator d = true) : c ≠ d := ne_of_isOperator hop hd
        simp [regexStep, itemStep, hne (d := .scalar '*') rfl, hne (d := .scalar '+') rfl,
          hne (d := .scalar '?') rfl, hne (d := .scalar '\\') rfl, hne (d := .scalar '[') rfl,
          hne (d := .scalar ')') rfl, hne (d := .scalar '(') rfl, hne (d := .scalar '|') rfl,
          hne (d := .scalar '^') rfl, hne (d := .scalar '$') rfl, hne (d := .scalar '\x7b') rfl]
      rw [hc, singleton_append, regexProblemFrom, hstep]
      exact ih true
    · rw [hc]
      exact ih _

theorem normalizePattern_text {s : Text} (hs : Phrase s) :
    normalizePattern (.text s) = .ok (regexOf (exactSource s) "") := by
  cases s with
  | nil => exact absurd rfl hs.ne_nil
  | cons c s =>
    have hc := hs.head c rfl
    have hhead : ¬ (decide (c = .scalar '/') || decide (c = .scalar '^')) = true := by
      rw [Bool.or_eq_true, decide_eq_true_iff, decide_eq_true_iff]
      rintro (rfl | rfl)
      · exact hc (by decide)
      · exact hc (by decide)
    have hproblem : regexProblem? (exactSource (c :: s)) = none := regexProblemFrom_exact (c :: s) false
    show (if _ then compile (c :: s) else compile (exactSource (c :: s))) = _
    rw [if_neg hhead, compile, hproblem]

section
variable {s : Text} (hs : Phrase s)
include hs

theorem commands_quotedReply {text : Text} (htext : Unquoted text) :
    (Registrations.ofText (quotedReply s text)).commands = [⟨autoReply 0, .reply (escapeRegex s) text⟩] := by
  have hcomma : .scalar ',' ∉ s := fun h => hs.plain _ h (by decide)
  have hcommands := commands_replyWritten (d := '\'') rfl hs.unquoted.2 hcomma htext
  rw [text_replyWritten] at hcommands
  rw [← replyPattern_apostrophized hs.unquoted.1]
  exact hcommands

theorem commands_quotedCommand : (Registrations.ofText (quotedCommand s)).commands = [⟨autoCommand 0, .pattern s⟩] := by
  have htrim : trim isQuote s = s := by
    refine trim_of_avoids (fun c hc => hs.unquoted.1 c (mem_of_mem_head? hc)) fun c hc => ?_
    exact hs.unquoted.1 c (mem_reverse.mp (mem_of_mem_head? hc))
  have hclosed : (Literal.quoted '\'' s).Closed := ⟨rfl, hs.ne_nil, fun h => by cases hs.unquoted.1 _ h⟩
  have hcommands := commands_patternWritten (d := '\'') rfl hs.unquoted.2 hclosed rfl
  rw [text_patternWritten, Literal.pattern, htrim] at hcommands
  exact hcommands

end

/-- **What a text between quotes answers.** The registrar's regular expression is matched by the text alone. The pattern
that is reported for a reply is found wherever the text stands in a message. The pattern that is reported for a command
is the text itself: without operators it is found in the same messages as a reply's, and whatever operators it has, as
long as none asks for the beginning of the message, the messages that it is found in are not the text alone. -/
theorem Phrase.triggers {s text : Text} (hs : Phrase s) (htext : Unquoted text) :
    (Registrations.ofText (quotedReply s text)).commands = [⟨autoReply 0, .reply (escapeRegex s) text⟩] ∧
    (Registrations.ofText (quotedCommand s)).commands = [⟨autoCommand 0, .pattern s⟩] ∧
    normalizePattern (.text s) = .ok (regexOf (exactSource s) "") ∧
    (∀ m, .scalar '\n' ∉ m → (Found (exactSource s) m ↔ m = s)) ∧
    (∀ m, Found (escapeRegex s) m ↔ s <:+: m) ∧
    ((∀ c ∈ s, isOperator c = false) → ∀ m, Found s m ↔ s <:+: m) ∧
    ∀ parts, readParts false s = some parts → .start ∉ parts →
      ∃ m, .scalar '\n' ∉ m ∧ ¬ (Found s m ↔ Found (exactSource s) m) := by
  have hline : .scalar '\n' ∉ s := fun h => hs.plain _ h (by decide)
  have hexact {m : Text} (hm : .scalar '\n' ∉ m) : Found (exactSource s) m ↔ m = s :=
    found_exact_iff (escapes_escapeExact s) hm
  refine ⟨commands_quotedReply hs htext, commands_quotedCommand hs, normalizePattern_text hs, fun m hm => hexact hm,
    found_escaped_iff (escapes_escapeRegexChar s), fun hplain m => ?_, fun parts hread hstart => ?_⟩
  · have hescapes : Escapes (fun c => [c]) s := fun c hc => .inl ⟨rfl, hplain c hc⟩
    have hsame := found_escaped_iff hescapes m
    rwa [List.flatMap_singleton'] at hsame
  · by_contra! hsame
    -- it is found in the text, so it is found in the text written twice
    have hself : Found s s := (hsame s hline).mpr ((hexact hline).mpr rfl)
    have htwice : .scalar '\n' ∉ s ++ s := by simpa using hline
    have heq : s ++ s = s := (hexact htwice).mp ((hsame _ htwice).mp (hself.append hread hstart s))
    exact hs.ne_nil (by simpa using heq)

theorem phrase_sum : Phrase "a+b" where
  ne_nil := by decide
  unquoted := ⟨by decide, rfl⟩
  plain := by decide
  head := by decide

theorem sum_triggers : Phrase "a+b" ∧ Unquoted "T" ∧ Found (escapeRegex "a+b") "3a+b4" ∧
    ¬ Found (exactSource "a+b") "3a+b4" ∧ ∃ m, .scalar '\n' ∉ m ∧ ¬ (Found "a+b" m ↔ Found (exactSource "a+b") m) := by
  have htext : Unquoted "T" := ⟨by decide, rfl⟩
  obtain ⟨-, -, -, hexact, hreply, -, hcommand⟩ := Phrase.triggers phrase_sum htext
  have hread : readParts false "a+b" = some [.chars (some 'a') .several, .chars (some 'b') .once] := by decide +kernel
  refine ⟨phrase_sum, htext, (hreply _).mpr (by decide), ?_, hcommand _ hread (by decide)⟩
  rw [hexact _ (by decide)]
  decide

/-- A reply to a text is reported with a pattern that more messages match than the text, and a command with a pattern
that others match. -/
theorem greeting_answers_more :
    (Registrations.ofText "mai.reply('hi', 'T')").commands = [⟨"auto_reply_0", .reply "hi" "T"⟩] ∧
      Found "hi" "oh hi" ∧ ¬ Found (exactSource "hi") "oh hi" ∧
    (Registrations.ofText "mai.command('a+b', async (ctx) => \x7b\x7d)").commands = [⟨"auto_cmd_0", .pattern "a+b"⟩] ∧
      Found "a+b" "aab" ∧ ¬ Found (exactSource "a+b") "aab" := by
  have hother {s m : Text} (hm : .scalar '\n' ∉ m) (hne : m ≠ s) : ¬ Found (exactSource s) m := fun h =>
    hne ((found_exact_iff (escapes_escapeExact s) hm).mp h)
  refine ⟨by decide +kernel, ?_, hother (by decide) (by decide), by decide +kernel, ?_, hother (by decide) (by decide)⟩
  · have hreply := found_escaped_iff (escapes_escapeRegexChar "hi") "oh hi"
    exact hreply.mpr (by decide)
  · refine ⟨[.chars (some 'a') .several, .chars (some 'b') .once], [], "aab", by decide +kernel, rfl, ?_⟩
    have ha : ∀ c ∈ ("aa" : Text), c = .scalar 'a' := by decide
    exact ⟨"aa", "b", rfl, Nat.succ_ne_zero 1, ha, "b", [], rfl, rfl, fun c => List.mem_singleton.mp, trivial⟩

end PluginKit.Bridge
