import PluginKit.Proofs.Script.Defined
import PluginKit.Proofs.Script.Spelling
import PluginKit.Proofs.Script.Translate
import PluginKit.Proofs.Text.Literal
import PluginKit.Proofs.Value.Entries
import PluginKit.Package.Component

/-!
# Texts of the author in generated code

The class of a component holds texts that its author wrote: the description, the match text, the name in the line that
ends the method. They stand between quotes as they are. The identifier is always read back, since it has only word
characters; any other text is read back exactly if it means itself between quotes (`texts_read_back_iff`).
-/

namespace PluginKit.Package

open List
open Value (str bind_eq_ok)
open Text (isWord)
open Text.Literal (isLineChar staysOpen backslashesStay)
open Script (Command Action safeName matchPattern Piece Splits isSpecial isWord_of_mem_safeName)

variable {c : Command} {a : Action} {m source start : Text} {pieces : List Piece} {index : Nat} {v : Value}
  {cls : ComponentClass}

/-! ### Lines that read back -/

/-- The text means itself between quotes, on one line. -/
structure Verbatim (s : Text) : Prop where
  line : ∀ c ∈ s, isLineChar c = true
  noQuote : .scalar '"' ∉ s
  backslashes : backslashesStay s = true

/-- The line is a single line of code, in which a literal stands between two pieces of code and reads back to the
text. -/
def ReadsBack (names : Text → Option CodePoint) (l : Line) (before text after : Text) : Prop :=
  (∀ c ∈ l.render, isLineChar c = true) ∧
    ∃ rest, l.render = before ++ rest ∧ Text.Literal.read names rest = some (text, after)

section
variable {names : Text → Option CodePoint} {l : Line} {before text after : Text}

theorem readsBack_iff {literal : Text} (hl : l.render = before ++ literal) :
    ReadsBack names l before text after ↔
      (∀ c ∈ before ++ literal, isLineChar c = true) ∧ Text.Literal.read names literal = some (text, after) := by
  rw [ReadsBack, hl]
  refine and_congr_right fun _ => ?_
  constructor
  · rintro ⟨rest, he, h⟩
    rwa [append_cancel_left he]
  · exact fun h => ⟨literal, rfl, h⟩

theorem readsBack_quoted_iff (hl : l.render = before ++ .scalar '"' :: (text ++ .scalar '"' :: after))
    (hbefore : ∀ c ∈ before, isLineChar c = true) (hafter : ∀ c ∈ after, isLineChar c = true)
    (hhead : after.head? ≠ some (.scalar '"')) : ReadsBack names l before text after ↔ Verbatim text := by
  have hquote : isLineChar (.scalar '"') = true := by decide
  rw [readsBack_iff hl, Text.Literal.read_quoted_iff hhead]
  constructor
  · rintro ⟨hline, hnoQuote, hbackslashes⟩
    exact ⟨fun c hc => hline c (by simp [hc]), hnoQuote, hbackslashes⟩
  · rintro ⟨hline, hnoQuote, hbackslashes⟩
    refine ⟨?_, hnoQuote, hbackslashes⟩
    simp only [forall_mem_append, forall_mem_cons]
    exact ⟨hbefore, hquote, hline, hquote, hafter⟩

theorem readsBack_raw_iff (hl : l.render = before ++ .scalar 'r' :: .scalar '"' :: (text ++ .scalar '"' :: after))
    (hbefore : ∀ c ∈ before, isLineChar c = true) (hafter : ∀ c ∈ after, isLineChar c = true)
    (hhead : after.head? ≠ some (.scalar '"')) : ReadsBack names l before text after ↔
      (∀ c ∈ text, isLineChar c = true) ∧ staysOpen false text = true := by
  have hquote : isLineChar (.scalar '"') = true := by decide
  have hraw : isLineChar (.scalar 'r') = true := by decide
  rw [readsBack_iff hl, Text.Literal.read_raw_iff hhead]
  refine and_congr_left fun _ => ⟨fun hline c hc => hline c (by simp [hc]), fun hline => ?_⟩
  simp only [forall_mem_append, forall_mem_cons]
  exact ⟨hbefore, hraw, hquote, hline, hquote, hafter⟩

end

/-- Among the lines is one with a text between quotes, and the text reads back exactly under a condition. -/
def Shows (names : Text → Option CodePoint) (lines : List Line) (l : Line) (before text after : Text)
    (readable : Prop) : Prop :=
  l ∈ lines ∧ (ReadsBack names l before text after ↔ readable)

/-! ### Identifiers -/

theorem isLineChar_of_isWord {c : CodePoint} (h : isWord c = true) : isLineChar c = true := by
  cases c with
  | scalar c =>
    rw [isLineChar, Bool.and_eq_true, Bool.and_eq_true, bne_iff_ne, bne_iff_ne, bne_iff_ne]
    refine ⟨⟨?_, ?_⟩, ?_⟩
    · rintro rfl
      revert h
      decide
    · rintro rfl
      revert h
      decide
    · intro hc
      have : c = '\x00' := Char.toNat_inj.mp hc
      subst this
      revert h
      decide
  | surrogate half =>
    have hranges : ∀ r ∈ Text.rangesFrom 0 Text.wordSpans, r.2 ≤ 0xD800 ∨ 0xE000 ≤ r.1 := by decide +kernel
    have hhalf := half.isLt
    have hn : (CodePoint.surrogate half).toNat = 0xD800 + half.val := rfl
    rw [isWord, if_neg (by omega), hn] at h
    obtain ⟨r, hr, h⟩ := (Text.inSpans_iff 0).mp h
    have := hranges r hr
    omega

theorem verbatim_of_isWord {s : Text} (h : ∀ c ∈ s, isWord c = true) : Verbatim s := by
  have hbackslash : ∀ s : Text, (∀ c ∈ s, isWord c = true) → backslashesStay s = true := by
    intro s hs
    induction s with
    | nil => rfl
    | cons c cs ih =>
      obtain ⟨hc, hcs⟩ := forall_mem_cons.mp hs
      have hne : c ≠ .scalar '\\' := by
        rintro rfl
        revert hc
        decide
      rw [backslashesStay, ih hcs, bne_iff_ne.mpr hne]
      rfl
  refine ⟨fun c hc => isLineChar_of_isWord (h c hc), fun hq => ?_, hbackslash s h⟩
  have := h _ hq
  revert this
  decide

/-! ### Patterns -/

theorem staysOpen_append {a : Text} (taken : Bool) (h : staysOpen taken a = true) (b : Text) :
    staysOpen taken (a ++ b) = staysOpen false b := by
  induction a generalizing taken with
  | nil =>
    cases taken with
    | false => rfl
    | true => cases h
  | cons c cs ih =>
    rw [staysOpen, Bool.and_eq_true] at h
    rw [cons_append, staysOpen, h.1, Bool.true_and, ih _ h.2]

theorem Splits.staysOpen_iff (h : Splits m pieces) :
    staysOpen false (pieces.flatMap Piece.pattern ++ "$") = true ↔ .scalar '"' ∉ m := by
  induction h with
  | nil => decide
  | hole hw _ ih =>
    rw [flatMap_cons, append_assoc, Piece.pattern, staysOpen_append false (by decide), ih]
    have hword := hw.not_mem (c := .scalar '"') (by decide)
    simp [hword]
  | @char c s pieces _ _ ih =>
    rw [flatMap_cons, append_assoc, Piece.pattern, mem_cons, not_or, ← ih]
    by_cases hc : isSpecial c = true
    · have hne : CodePoint.scalar '"' ≠ c := by
        rintro rfl
        revert hc
        decide
      have hopen : staysOpen false [.scalar '\\', c] = true := by simp [staysOpen]
      rw [Script.escapeRegexChar_of_special hc, staysOpen_append false hopen]
      simp [hne]
    · have hne : c ≠ .scalar '\\' := by
        rintro rfl
        exact hc (by decide)
      rw [Script.escapeRegexChar_of_not_special hc, singleton_append, staysOpen]
      simp [beq_eq_false_iff_ne.mpr hne, @eq_comm _ c (.scalar '"')]

theorem Splits.isLineChar_iff (h : Splits m pieces) :
    (∀ c ∈ pieces.flatMap Piece.pattern, isLineChar c = true) ↔ ∀ c ∈ m, isLineChar c = true := by
  induction h with
  | nil => simp
  | hole hw _ ih =>
    have hword := (verbatim_of_isWord hw.chars).line
    rw [flatMap_cons, forall_mem_append, ih, Piece.pattern]
    simp only [forall_mem_cons, forall_mem_append]
    exact ⟨fun h => ⟨by decide, hword, by decide, h.2⟩, fun h => ⟨by decide, h.2.2.2⟩⟩
  | @char c s pieces _ _ ih =>
    rw [flatMap_cons, forall_mem_append, ih, forall_mem_cons, Piece.pattern, Script.escapeRegexChar]
    refine and_congr_left fun _ => ?_
    split
    · rw [forall_mem_cons, forall_mem_singleton]
      exact ⟨fun h => h.2, fun h => ⟨by decide, h⟩⟩
    · exact forall_mem_singleton

/-- A match text whose pattern means itself in a raw literal: all of it on one line, and without quotes; in a regular
expression a quote may stand behind a backslash. -/
def Fits (m : Text) : Prop :=
  (∀ c ∈ m, isLineChar c = true) ∧ if m.head? = some (.scalar '^') then staysOpen false m = true else .scalar '"' ∉ m

theorem fits_iff (m : Text) :
    (∀ c ∈ matchPattern m, isLineChar c = true) ∧ staysOpen false (matchPattern m) = true ↔ Fits m := by
  unfold Fits
  by_cases hm : m.head? = some (.scalar '^')
  · have hpattern : matchPattern m = m := if_pos hm
    rw [hpattern, if_pos hm]
  · obtain ⟨pieces, hpieces⟩ := Script.exists_splits m
    have hopen : staysOpen false ("^" ++ pieces.flatMap Piece.pattern ++ "$") =
        staysOpen false (pieces.flatMap Piece.pattern ++ "$") := by
      rw [append_assoc]
      exact staysOpen_append false (by decide) _
    rw [Script.matchPattern_eq hm hpieces, if_neg hm, hopen, Splits.staysOpen_iff hpieces, forall_mem_append,
      forall_mem_append, Splits.isLineChar_iff hpieces]
    refine and_congr_left fun _ => ⟨fun h => h.1.2, fun h => ⟨⟨by decide, h⟩, by decide⟩⟩

/-! ### Accepted components -/

theorem command_of_accepted (h : Command.ofValue source index v = .ok c) :
    c.internalName = safeName c.name ∧ c.pattern = matchPattern c.matchText := by
  obtain ⟨entries, -, -, -, -, hinternal, hpattern⟩ := Script.command_ofValue_ok h
  exact ⟨hinternal, hpattern⟩

theorem action_of_accepted (h : Action.ofValue source index v = .ok a) : a.internalName = safeName a.name := by
  obtain ⟨entries, trigger, -, -, -, -, -, hinternal, -⟩ := Script.action_ofValue_ok h
  exact hinternal

def commandEnd (name : Text) : Line := .code 2 ("return True, \"" ++ name ++ " 执行成功\", True")

def actionEnd (name : Text) : Line := .code 2 ("return True, \"" ++ name ++ " 执行成功\"")

theorem commandClass_toValue (h : commandClass start c.toValue = .ok cls) :
    ∃ description body, c.description.display = .ok description ∧
      cls = ⟨componentClassName start .command c.internalName, c.name, c.internalName, description,
        .command c.matchText c.pattern, body ++ [commandEnd c.name]⟩ := by
  have hinternal : c.toValue.item "internal_name" = .ok (str c.internalName) := Value.item_record rfl
  have hname : c.toValue.item "name" = .ok (str c.name) := Value.item_record rfl
  have hmatch : c.toValue.item "match" = .ok (str c.matchText) := Value.item_record rfl
  have hpattern : c.toValue.item "pattern" = .ok (str c.pattern) := Value.item_record rfl
  have hdescription : descriptionOf c.toValue (str c.name) = .ok c.description := Value.get_record _ _ _
  unfold commandClass at h
  simp only [hinternal, hname, hmatch, hpattern, hdescription, Value.ok_bind] at h
  obtain ⟨internalName, htext, h⟩ := bind_eq_ok.mp h
  obtain ⟨title, htitle, h⟩ := bind_eq_ok.mp h
  obtain ⟨matchText, hmatchText, h⟩ := bind_eq_ok.mp h
  obtain ⟨description, hd, h⟩ := bind_eq_ok.mp h
  obtain ⟨pattern, hpatternText, h⟩ := bind_eq_ok.mp h
  obtain ⟨body, -, h⟩ := bind_eq_ok.mp h
  cases htext
  cases htitle
  cases hmatchText
  cases hpatternText
  cases h
  exact ⟨description, body, hd, rfl⟩

/-- The method of an accepted action ends with the line that says so. -/
theorem actionEnd_mem {className name : Text} {lines : List Line}
    (h : actionBody className name a.toValue = .ok lines) : actionEnd name ∈ lines := by
  have htype : ∃ type, a.toValue.get "type" (str "reply") = .ok type ∧ (type.isStr "reply" = true ∨
      type.isStr "python" = true ∨ type.isStr "http_get" = true ∨ type.isStr "llm_prompt" = true) := by
    refine ⟨_, Value.get_record _ _ _, ?_⟩
    cases a.response with
    | reply => exact .inl rfl
    | python => exact .inr (.inl rfl)
    | httpGet => exact .inr (.inr (.inl rfl))
    | prompt => exact .inr (.inr (.inr rfl))
  obtain ⟨type, htype, hknown⟩ := htype
  unfold actionBody at h
  rw [htype, Value.ok_bind] at h
  split at h
  · obtain ⟨reply, -, h⟩ := bind_eq_ok.mp h
    obtain ⟨text, -, h⟩ := bind_eq_ok.mp h
    cases h
    exact mem_append_right _ (mem_singleton_self _)
  · split at h
    · obtain ⟨value, -, h⟩ := bind_eq_ok.mp h
      obtain ⟨code, -, h⟩ := bind_eq_ok.mp h
      cases h
      exact mem_append_right _ (mem_cons_of_mem _ (mem_singleton_self _))
    · split at h
      · obtain ⟨request, -, h⟩ := bind_eq_ok.mp h
        obtain ⟨url, -, h⟩ := bind_eq_ok.mp h
        obtain ⟨template, -, h⟩ := bind_eq_ok.mp h
        obtain ⟨address, -, h⟩ := bind_eq_ok.mp h
        obtain ⟨reply, -, h⟩ := bind_eq_ok.mp h
        cases h
        exact mem_append_right _ (mem_of_getLast? rfl)
      · split at h
        · obtain ⟨prompt, -, h⟩ := bind_eq_ok.mp h
          obtain ⟨text, -, h⟩ := bind_eq_ok.mp h
          cases h
          exact mem_append_right _ (mem_of_getLast? rfl)
        · next hreply hpython hhttp hprompt =>
          rcases hknown with h | h | h | h
          · exact absurd h hreply
          · exact absurd h hpython
          · exact absurd h hhttp
          · exact absurd h hprompt

theorem actionClass_toValue (h : actionClass start a.toValue = .ok cls) :
    ∃ description parameters triggers types body, a.description.display = .ok description ∧
      actionEnd a.name ∈ body ∧
      cls = ⟨componentClassName start .action a.internalName, a.name, a.internalName, description,
        .action parameters triggers types, body⟩ := by
  have hinternal : a.toValue.item "internal_name" = .ok (str a.internalName) := Value.item_record rfl
  have hname : a.toValue.item "name" = .ok (str a.name) := Value.item_record rfl
  have hdescription : descriptionOf a.toValue (str a.name) = .ok a.description := Value.get_record _ _ _
  unfold actionClass at h
  simp only [hinternal, hname, hdescription, Value.ok_bind] at h
  obtain ⟨internalName, htext, h⟩ := bind_eq_ok.mp h
  obtain ⟨params, -, h⟩ := bind_eq_ok.mp h
  obtain ⟨entries, -, h⟩ := bind_eq_ok.mp h
  obtain ⟨title, htitle, h⟩ := bind_eq_ok.mp h
  obtain ⟨description, hd, h⟩ := bind_eq_ok.mp h
  obtain ⟨parameters, -, h⟩ := bind_eq_ok.mp h
  obtain ⟨triggerValue, -, h⟩ := bind_eq_ok.mp h
  obtain ⟨triggers, -, h⟩ := bind_eq_ok.mp h
  obtain ⟨typeValue, -, h⟩ := bind_eq_ok.mp h
  obtain ⟨types, -, h⟩ := bind_eq_ok.mp h
  obtain ⟨keys, -, h⟩ := bind_eq_ok.mp h
  obtain ⟨read, -, h⟩ := bind_eq_ok.mp h
  obtain ⟨body, hbody, h⟩ := bind_eq_ok.mp h
  cases htext
  cases htitle
  cases h
  exact ⟨description, parameters, triggers, types, _, hd, mem_append_right _ (actionEnd_mem hbody), rfl⟩

/-! ### What is read back -/

/-- **Which texts of an author are read back** from the class of an accepted component: always the identifier, and
every other text exactly if it means itself between quotes. -/
theorem texts_read_back_iff (names : Text → Option CodePoint) (source start : Text) (index : Nat) (v : Value) :
    (∀ c cls, Command.ofValue source index v = .ok c → commandClass start c.toValue = .ok cls →
      ∃ description, c.description.display = .ok description ∧
        Shows names cls.lines (.assign 1 "command_name" (.quoted c.internalName)) "    command_name = "
          c.internalName "" True ∧
        Shows names cls.lines (.assign 1 "command_description" (.quoted description)) "    command_description = "
          description "" (Verbatim description) ∧
        Shows names cls.lines (.assign 1 "command_pattern" (.raw c.pattern)) "    command_pattern = "
          c.pattern "" (Fits c.matchText) ∧
        Shows names cls.lines (commandEnd c.name) "        return True, " (c.name ++ " 执行成功") ", True"
          (Verbatim (c.name ++ " 执行成功"))) ∧
    (∀ a cls, Action.ofValue source index v = .ok a → actionClass start a.toValue = .ok cls →
      ∃ description, a.description.display = .ok description ∧
        Shows names cls.lines (.assign 1 "action_name" (.quoted a.internalName)) "    action_name = "
          a.internalName "" True ∧
        Shows names cls.lines (.assign 1 "action_description" (.quoted description)) "    action_description = "
          description "" (Verbatim description) ∧
        Shows names cls.lines (actionEnd a.name) "        return True, " (a.name ++ " 执行成功") ""
          (Verbatim (a.name ++ " 执行成功"))) := by
  constructor
  · intro c cls hc hcls
    obtain ⟨hname, hpattern⟩ := command_of_accepted hc
    obtain ⟨description, body, hdescription, rfl⟩ := commandClass_toValue hcls
    have hidentifier : Verbatim c.internalName := hname ▸ verbatim_of_isWord isWord_of_mem_safeName
    refine ⟨description, hdescription, ⟨?_, ?_⟩, ⟨?_, ?_⟩, ⟨?_, ?_⟩, ⟨?_, ?_⟩⟩
    · simp [ComponentClass.lines, ComponentClass.attributeLines]
    · rw [readsBack_quoted_iff rfl (by decide) (by decide) (by decide), iff_true]
      exact hidentifier
    · simp [ComponentClass.lines, ComponentClass.attributeLines]
    · exact readsBack_quoted_iff rfl (by decide) (by decide) (by decide)
    · simp [ComponentClass.lines, ComponentClass.attributeLines]
    · rw [readsBack_raw_iff rfl (by decide) (by decide) (by decide), hpattern]
      exact fits_iff c.matchText
    · simp [ComponentClass.lines]
    · refine readsBack_quoted_iff ?_ (by decide) (by decide) (by decide)
      simp [commandEnd, Line.render, Line.code, Line.margin, Statement.render, Text.times, Text.ofString,
        List.replicate_succ]
  · intro a cls ha hcls
    have hname := action_of_accepted ha
    obtain ⟨description, parameters, triggers, types, body, hdescription, hend, rfl⟩ := actionClass_toValue hcls
    have hidentifier : Verbatim a.internalName := hname ▸ verbatim_of_isWord isWord_of_mem_safeName
    refine ⟨description, hdescription, ⟨?_, ?_⟩, ⟨?_, ?_⟩, ⟨?_, ?_⟩⟩
    · simp [ComponentClass.lines, ComponentClass.attributeLines]
    · rw [readsBack_quoted_iff rfl (by decide) (by decide) (by decide), iff_true]
      exact hidentifier
    · simp [ComponentClass.lines, ComponentClass.attributeLines]
    · exact readsBack_quoted_iff rfl (by decide) (by decide) (by decide)
    · exact List.mem_append_right _ hend
    · refine readsBack_quoted_iff ?_ (by decide) (by decide) (by decide)
      simp [actionEnd, Line.render, Line.code, Line.margin, Statement.render, Text.times, Text.ofString,
        List.replicate_succ]

def quotingCommand : Value := .record [("name", str "x"), ("match", str "/x"), ("description", str "a\"; b = \"c"),
  ("reply", str "ok")]

def breakingAction : Value := .record [("name", str "x\ny"), ("when", str "w"), ("reply", str "ok")]

theorem quotingCommand_lost :
    (∃ c cls, Command.ofValue "<string>" 0 quotingCommand = .ok c ∧ commandClass "P" c.toValue = .ok cls ∧
      Shows (fun _ => none) cls.lines (.assign 1 "command_name" (.quoted "x")) "    command_name = " "x" "" True ∧
      Shows (fun _ => none) cls.lines (.assign 1 "command_description" (.quoted "a\"; b = \"c"))
        "    command_description = " "a\"; b = \"c" "" False ∧
      Shows (fun _ => none) cls.lines (.assign 1 "command_pattern" (.raw "^/x$")) "    command_pattern = " "^/x$" ""
        True) ∧
    (∃ a cls, Action.ofValue "<string>" 0 breakingAction = .ok a ∧ actionClass "P" a.toValue = .ok cls ∧
      Shows (fun _ => none) cls.lines (.assign 1 "action_name" (.quoted "x_y")) "    action_name = " "x_y" "" True ∧
      Shows (fun _ => none) cls.lines (actionEnd "x\ny") "        return True, " "x\ny 执行成功" "" False) := by
  have hquote : ¬ Verbatim "a\"; b = \"c" := fun h => absurd h.noQuote (by decide)
  have hline : ¬ Verbatim "x\ny 执行成功" := fun h => absurd h.line (by decide)
  have hfits : Fits "/x" := ⟨by decide, by decide⟩
  constructor
  · obtain ⟨description, hdescription, hname, hshown, hpattern, -⟩ :=
      (texts_read_back_iff (fun _ => none) "<string>" "P" 0 quotingCommand).1 _ _ rfl rfl
    cases hdescription
    exact ⟨_, _, rfl, rfl, hname, ⟨hshown.1, hshown.2.trans (iff_false_intro hquote)⟩,
      ⟨hpattern.1, hpattern.2.trans (iff_true_intro hfits)⟩⟩
  · obtain ⟨description, -, hname, -, hend⟩ :=
      (texts_read_back_iff (fun _ => none) "<string>" "P" 0 breakingAction).2 _ _ rfl rfl
    exact ⟨_, _, rfl, rfl, hname, ⟨hend.1, hend.2.trans (iff_false_intro hline)⟩⟩

/-- The description of this command ends its literal, and what follows is code. -/
theorem quotingCommand_escapes :
    ∃ c cls, Command.ofValue "<string>" 0 quotingCommand = .ok c ∧ commandClass "P" c.toValue = .ok cls ∧
      (∃ l ∈ cls.lines, l.render = "    command_description = \"a\"; b = \"c\"") ∧
      Text.Literal.read (fun _ => none) "\"a\"; b = \"c\"" = some (("a" : Text), ("; b = \"c\"" : Text)) := by
  refine ⟨_, _, rfl, rfl, ⟨.assign 1 "command_description" (.quoted "a\"; b = \"c"), ?_, by decide⟩, by decide +kernel⟩
  simp [ComponentClass.lines, ComponentClass.attributeLines]

end PluginKit.Package
