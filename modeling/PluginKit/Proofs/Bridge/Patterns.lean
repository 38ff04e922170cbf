import PluginKit.Proofs.Bridge.ObjectFields

/-!
# Regular expressions in the three forms

A regular expression can stand in a command with an object literal, in a command with a function and in a reply. The
last two are read up to the slash that closes it, the first only up to its first slash. So the three forms report the
same pattern for every regular expression without a slash, and for no other (`patterns_same_iff`): from one with an
escaped slash the object literal keeps what stands before it, with the backslash at the end.
-/

namespace PluginKit.Bridge

open Text List

/-! ### The three forms -/

def objectForm (name body : Text) : Text :=
  "mai.command(\x7b name: " ++ apostrophized name ++ ", pattern: /" ++ body ++ "/, execute: async (ctx) => \x7b\x7d \x7d)"

def patternForm (body : Text) : Text := "mai.command(/" ++ body ++ "/, async (ctx) => \x7b\x7d)"

def replyForm (body text : Text) : Text := "mai.reply(/" ++ body ++ "/, " ++ apostrophized text ++ ")"

def Details.pattern? : Details → Option Text
  | reply p _ => some p
  | pattern p => some p
  | catchAll => some everything
  | object fields => fields.pattern.map Prod.fst

/-- The patterns that are reported for the commands of a file. -/
def patterns (s : Text) : List (Option Text) := (Registrations.ofText s).commands.map (·.details.pattern?)

/-- A regular expression on one line without commas, braces, quotes and colons. -/
structure PlainBody (body : Text) : Prop where
  regex : RegexText body
  ne_nil : body ≠ []
  plain : ∀ c ∈ body, isQuote c = false ∧ c ∉ ("\n,:\x7b\x7d" : Text)
  quiet : occursIn "mai." body = false

/-- A name without colons and closing braces. -/
structure PlainLabel (name : Text) : Prop where
  ne_nil : name ≠ []
  unquoted : Unquoted name
  plain : ∀ c ∈ name, c ∉ (":\x7d" : Text)

/-! ### One registration -/

theorem scannedCommands_text {w : Written} (hw : w.Scannable) : scannedCommands w.text =
    replyRegistrations 0 w.reply?.toList ++ objectRegistrations (w.block? .command).toList ++
      numberedCommands 0 (w.pattern?.toList.map Details.pattern ++ w.catchAll?.toList.map fun _ => Details.catchAll) := by
  have hf : SourceFile.Scannable ⟨[], [w]⟩ := ⟨rfl, by simpa using hw⟩
  have htext : w.text = SourceFile.text ⟨[], [w]⟩ := by simp [SourceFile.text]
  have hone {α : Type} (f : Written → Option α) : [w].filterMap f = (f w).toList := by
    cases h : f w <;> simp [h]
  have hobject := findAll_objectCall hf .command
  rw [Written.roleFunction] at hobject
  rw [htext, scannedCommands, findAll_replyCall hf, hobject, findAll_patternCall hf, findAll_catchAllCall hf]
  simp only [hone]

/-! ### Commands with a function and replies -/

def enclosed (d : CodePoint) (body : Text) : Text := d :: (body ++ [d])

def patternWritten (literal : Literal) : Written := ⟨.pattern literal, spaceAt [3], '\'', true, "ctx) => \x7b\x7d)"⟩

def replyWritten (source text : Text) : Written := ⟨.reply source text none, spaceAt [2], '\'', false, []⟩

theorem text_patternWritten (literal : Literal) :
    (patternWritten literal).text = "mai.command(" ++ literal.text ++ ", async (ctx) => \x7b\x7d)" := by
  simp [patternWritten, Written.text, Written.function, Written.arguments, Written.asyncText, spaceAt, Text.ofString]

theorem text_replyWritten (source text : Text) :
    (replyWritten source text).text = "mai.reply(" ++ source ++ ", " ++ apostrophized text ++ ")" := by
  simp [replyWritten, Written.text, Written.function, Written.arguments, Written.quoted, Written.nameText, apostrophized,
    spaceAt, Text.ofString]

section
variable {d : CodePoint} {body : Text} (hd : (isQuote d || d == '/') = true) (hquiet : occursIn "mai." body = false)
include hd

theorem not_mem_mark : d ∉ ("mai." : Text) := by
  have hall : ∀ c ∈ ("mai." : Text), ¬ (isQuote c || c == '/') = true := by decide
  exact fun h => hall d h hd

theorem trim_enclosed (body : Text) : trim isBlank (enclosed d body) = enclosed d body := by
  have hblank : isBlank d = false := by
    simp only [isQuote, Bool.or_eq_true, beq_iff_eq] at hd
    rcases hd with (rfl | rfl) | rfl <;> decide
  refine trim_of_avoids (avoids_cons hblank) ?_
  rw [enclosed, reverse_cons, reverse_append]
  exact avoids_cons hblank

include hquiet

theorem commands_patternWritten {literal : Literal} (hclosed : literal.Closed) (hliteral : literal.text = enclosed d body) :
    (Registrations.ofText (patternWritten literal).text).commands = [⟨autoCommand 0, .pattern literal.pattern⟩] := by
  have hscannable : (patternWritten literal).Scannable := by
    refine ⟨hclosed, allBlank_spaceAt _, rfl, fun _ _ _ h => (by cases h), ?_⟩
    have htext : (patternWritten literal).text.drop 1 = ("ai.command(" : Text) ++ d :: (body ++ d ::
        (", async (ctx) => \x7b\x7d)" : Text)) := by
      simp [text_patternWritten, hliteral, enclosed, Text.ofString]
    rw [htext]
    exact occursIn_append_cons (not_mem_mark hd) rfl (occursIn_append_cons (not_mem_mark hd) hquiet rfl)
  rw [Registrations.ofText, scannedCommands_text hscannable]
  rfl

theorem commands_replyWritten {text : Text} (hcomma : .scalar ',' ∉ body) (htext : Unquoted text) :
    (Registrations.ofText (replyWritten (enclosed d body) text).text).commands
      = [⟨autoReply 0, .reply (replyPattern (enclosed d body)) text⟩] := by
  have hd' : CodePoint.scalar ',' ≠ d := by
    rintro rfl
    cases hd
  have hscannable : (replyWritten (enclosed d body) text).Scannable := by
    refine ⟨⟨⟨d, body ++ [d], rfl, hd, by simp⟩, by simp [enclosed, hd', hcomma], htext.1, nofun⟩,
      allBlank_spaceAt _, rfl, fun _ _ _ h => (by cases h), ?_⟩
    have hquote : CodePoint.scalar '\'' ∉ ("mai." : Text) := by decide
    have hform : (replyWritten (enclosed d body) text).text.drop 1 = ("ai.reply(" : Text) ++ d :: (body ++ d ::
        ((", " : Text) ++ .scalar '\'' :: (text ++ .scalar '\'' :: (")" : Text)))) := by
      simp [text_replyWritten, enclosed, apostrophized, Text.ofString]
    rw [hform]
    exact occursIn_append_cons (not_mem_mark hd) rfl (occursIn_append_cons (not_mem_mark hd) hquiet
      (occursIn_append_cons hquote rfl (occursIn_append_cons hquote htext.2 rfl)))
  have hreply : (replyWritten (enclosed d body) text).reply? = some ⟨enclosed d body, text, none⟩ :=
    congrArg (fun source => some (ReplyCall.mk source text none)) (trim_enclosed hd body)
  rw [Registrations.ofText, scannedCommands_text hscannable, hreply]
  rfl

end

section
variable {body : Text} (hbody : PlainBody body)
include hbody

theorem commands_patternForm : (Registrations.ofText (patternForm body)).commands = [⟨autoCommand 0, .pattern body⟩] := by
  have hclosed : (Literal.regex body []).Closed :=
    ⟨hbody.ne_nil, regexBody_of_regexText hbody.regex, nofun⟩
  have hform : patternForm body = (patternWritten (.regex body [])).text := by
    simp [text_patternWritten, patternForm, Literal.text, Text.ofString]
  rw [hform]
  exact commands_patternWritten (d := .scalar '/') rfl hbody.quiet hclosed rfl

omit hbody in
theorem splitLastSlash_append (s : Text) : splitLastSlash (s ++ [.scalar '/']) = some (s, []) := by
  induction s with
  | nil => rfl
  | cons c s ih => rw [cons_append, splitLastSlash, ih]

theorem replyPattern_regex : replyPattern (.scalar '/' :: (body ++ [.scalar '/'])) = body := by
  have hempty : body.isEmpty = false := by simpa using hbody.ne_nil
  have hline : body.contains (.scalar '\n') = false := by
    rw [← Bool.not_eq_true, contains_iff_mem]
    exact fun h => (hbody.plain _ h).2 (by decide)
  have hwhole : wholeRegex? (body ++ [.scalar '/']) = some body := by
    rw [wholeRegex?, splitLastSlash_append]
    simp only [hempty, hline]
    rfl
  show (wholeRegex? (body ++ [.scalar '/'])).getD _ = body
  rw [hwhole]
  rfl

theorem commands_replyForm {text : Text} (htext : Unquoted text) :
    (Registrations.ofText (replyForm body text)).commands = [⟨autoReply 0, .reply body text⟩] := by
  have hform : replyForm body text = (replyWritten (enclosed '/' body) text).text := by
    simp [text_replyWritten, replyForm, enclosed, Text.ofString]
  have hpattern : replyPattern (enclosed '/' body) = body := replyPattern_regex hbody
  have hcomma : .scalar ',' ∉ body := fun h => (hbody.plain _ h).2 (by decide)
  rw [hform, commands_replyWritten rfl hbody.quiet hcomma htext, hpattern]

end

/-! ### Commands with an object literal -/

/-- What stands before the first slash of a regular expression. -/
def cutBody (body : Text) : Text := body.takeWhile (· != .scalar '/')

/-- The options that seem to stand behind the first slash of a regular expression. -/
def cutFlags (body : Text) : Text := (body.dropWhile (· != .scalar '/')).tail.takeWhile isFlag

theorem cutBody_eq_iff {body : Text} : cutBody body = body ↔ .scalar '/' ∉ body := by
  rw [cutBody, takeWhile_eq_self_iff]
  refine ⟨fun h hm => ?_, fun h c hc => ?_⟩
  · simpa using h _ hm
  · rw [bne_iff_ne]
    rintro rfl
    exact h hc

theorem cutBody_ne_nil {body : Text} (h : RegexText body) (hne : body ≠ []) : cutBody body ≠ [] := by
  cases h with
  | nil => exact absurd rfl hne
  | plain hslash _ _ =>
    rw [cutBody, takeWhile_cons_of_pos (by simpa using hslash)]
    exact cons_ne_nil _ _
  | escaped _ _ => exact cons_ne_nil _ _

theorem takeWhile_append_of_stop {p : CodePoint → Bool} {c : CodePoint} (hc : p c = false) (s t : Text) :
    (s ++ c :: t).takeWhile p = s.takeWhile p := by
  induction s with
  | nil => rw [nil_append, takeWhile_cons_of_neg (by simp [hc]), takeWhile_nil]
  | cons d s ih =>
    rw [cons_append, takeWhile_cons, takeWhile_cons, ih]

/-- What stands behind the first slash of a regular expression, its own closing slash included. -/
theorem exists_cut (body : Text) {t : Text} (ht : Avoids isFlag t) :
    ∃ post, body ++ .scalar '/' :: t = cutBody body ++ .scalar '/' :: post ∧ post.takeWhile isFlag = cutFlags body := by
  by_cases hmem : .scalar '/' ∈ body
  · obtain ⟨v, hv⟩ := takeWhile_split hmem
    have hdrop : body.dropWhile (· != .scalar '/') = .scalar '/' :: v :=
      append_cancel_left (takeWhile_append_dropWhile.trans hv)
    refine ⟨v ++ .scalar '/' :: t, ?_, ?_⟩
    · conv_lhs => rw [hv]
      rw [cutBody, append_assoc, cons_append]
    · rw [cutFlags, hdrop, tail_cons, takeWhile_append_of_stop (by decide)]
  · have hdrop : body.dropWhile (· != .scalar '/') = [] := by
      rw [dropWhile_eq_nil_iff, ← takeWhile_eq_self_iff]
      exact cutBody_eq_iff.mpr hmem
    refine ⟨t, by rw [cutBody_eq_iff.mpr hmem], ?_⟩
    rw [cutFlags, hdrop]
    exact takeWhile_run (s := []) nofun ht

/-- **An object literal is read up to the first slash of its regular expression.** -/
theorem slashed_append {body t : Text} (h : RegexText body) (hne : body ≠ []) (ht : Avoids isFlag t) :
    ∃ rest, slashed (.scalar '/' :: (body ++ .scalar '/' :: t)) = some ((cutBody body, cutFlags body), rest) := by
  obtain ⟨post, hcut, hflags⟩ := exists_cut body ht
  refine ⟨post.dropWhile isFlag, ?_⟩
  rw [hcut, slashed_run (cutBody_ne_nil h hne) (not_mem_takeWhile_ne _ _), hflags]

def objectWritten (name body : Text) : Written :=
  ⟨.object .command " " name, spaceAt [3], '\'', false,
    ", pattern: /" ++ body ++ "/, execute: async (ctx) => \x7b\x7d \x7d)"⟩

theorem text_objectWritten (name body : Text) : (objectWritten name body).text = objectForm name body := by
  simp [objectWritten, objectForm, Written.text, Written.function, Written.arguments, Written.quoted, apostrophized,
    spaceAt, Text.ofString]

def objectEntries (name body : Text) : List Entry :=
  [⟨" ", "name", apostrophized name⟩, ⟨", ", "pattern", "/" ++ body ++ "/"⟩, ⟨", ", "execute", "async (ctx) => \x7b"⟩]

/-- The object literal up to its first closing brace. -/
def objectBlock (name body : Text) : Text := (objectEntries name body).flatMap Entry.text ++ []

section
variable {name body : Text} (hname : PlainLabel name) (hbody : PlainBody body)

include hname hbody in
theorem scannable_objectWritten : (objectWritten name body).Scannable where
  form := ⟨by decide, fun h => hname.plain _ h (by decide)⟩
  pad := allBlank_spaceAt _
  quote := rfl
  closed _ _ _ _ := by simp [objectWritten, Text.ofString]
  quiet := by
    have hslash : CodePoint.scalar '/' ∉ ("mai." : Text) := by decide
    have hquote : CodePoint.scalar '\'' ∉ ("mai." : Text) := by decide
    have hform : (objectForm name body).drop 1 = ("ai.command(\x7b name: " : Text) ++ .scalar '\'' :: (name ++
        .scalar '\'' :: ((", pattern: " : Text) ++ .scalar '/' :: (body ++ .scalar '/' ::
          (", execute: async (ctx) => \x7b\x7d \x7d)" : Text)))) := by
      simp [objectForm, apostrophized, Text.ofString]
    rw [text_objectWritten, hform]
    exact occursIn_append_cons hquote rfl (occursIn_append_cons hquote hname.unquoted.2
      (occursIn_append_cons hslash rfl (occursIn_append_cons hslash hbody.quiet rfl)))

include hbody in
theorem block_objectWritten (name : Text) :
    (objectWritten name body).block? .command = some (objectBlock name body) := by
  have hbrace : .scalar '\x7d' ∉ body := fun h => (hbody.plain _ h).2 (by decide)
  have hrest : (objectWritten name body).rest = (", pattern: /" ++ body ++ "/, execute: async (ctx) => \x7b") ++
      .scalar '\x7d' :: (" \x7d)" : Text) := by
    simp [objectWritten, Text.ofString]
  have hrun : (objectWritten name body).rest.takeWhile (· != .scalar '\x7d')
      = ", pattern: /" ++ body ++ "/, execute: async (ctx) => \x7b" := by
    rw [hrest]
    refine takeWhile_run (fun c hc => ?_) (avoids_cons (by simp))
    rw [bne_iff_ne]
    rintro rfl
    simp [hbrace, Text.ofString] at hc
  show some ((objectWritten name body).block " " name) = _
  rw [Written.block, hrun]
  simp [objectWritten, objectBlock, objectEntries, Entry.text, Written.quoted, apostrophized, spaceAt, Text.ofString]

include hname hbody

theorem clear_objectEntries : ∀ e ∈ objectEntries name body, e.Clear := by
  have hlabel : .scalar ':' ∉ name := fun h => hname.plain _ h (by decide)
  have hregex : .scalar ':' ∉ body := fun h => (hbody.plain _ h).2 (by decide)
  simp only [objectEntries, forall_mem_cons]
  refine ⟨⟨?_, ?_, ?_, _, rfl, by decide⟩, ⟨?_, ?_, ?_, _, rfl, by decide⟩, ⟨?_, ?_, ?_, _, rfl, by decide⟩,
    nofun⟩
  all_goals simp [apostrophized, hlabel, hregex, Text.ofString]

open Entry in
theorem fields_objectBlock : Fields.ofText (objectBlock name body)
    = ⟨some name, none, some (cutBody body, cutFlags body), none, none, none⟩ := by
  have hclear := clear_objectEntries hname hbody
  have hlabel : findFirst? (keyed "name" quotedText) (objectBlock name body) = some name :=
    findFirst?_entry [] rfl hclear nofun rfl
      ⟨_, quotedText_apostrophized hname.ne_nil hname.unquoted.1 _⟩
  have hpattern : findFirst? (keyed "pattern" slashed) (objectBlock name body) = some (cutBody body, cutFlags body) := by
    refine findFirst?_entry [_] rfl hclear ?_ rfl ?_
    · exact forall_mem_singleton.mpr (passed_of_first rfl (slashed_other (by decide)))
    · have hread := slashed_append (t := ", execute: async (ctx) => \x7b") hbody.regex hbody.ne_nil (avoids_cons (by decide))
      simpa [Entry.text, Text.ofString] using hread
  have hdescription : findFirst? (keyed "description" quotedText) (objectBlock name body) = none := by
    refine findFirst?_no_entry (by decide) hclear ?_ not_mem_nil
    simp only [objectEntries, forall_mem_cons]
    exact ⟨passed_of_key rfl rfl (by decide) (by decide) (by decide), passed_of_first rfl (quotedText_other (by decide)),
      passed_of_first rfl (quotedText_other (by decide)), nofun⟩
  have hbracket {o c : CodePoint} (key : Text) (hkey : .scalar ':' ∉ key)
      (ho : .scalar '\'' ≠ o ∧ .scalar '/' ≠ o ∧ .scalar 'a' ≠ o) :
      findFirst? (keyed key (bracketed o c)) (objectBlock name body) = none := by
    refine findFirst?_no_entry hkey hclear ?_ not_mem_nil
    simp only [objectEntries, forall_mem_cons]
    exact ⟨passed_of_first rfl (Written.bracketed_other ho.1), passed_of_first rfl (Written.bracketed_other ho.2.1),
      passed_of_first rfl (Written.bracketed_other ho.2.2), nofun⟩
  rw [Fields.ofText, hlabel, hdescription, hpattern, hbracket "require" (by decide) (by decide),
    hbracket "parameters" (by decide) (by decide), hbracket "types" (by decide) (by decide)]
  rfl

theorem commands_objectForm : (Registrations.ofText (objectForm name body)).commands
    = [⟨name, .object ⟨some name, none, some (cutBody body, cutFlags body), none, none, none⟩⟩] := by
  have hscanned := scannedCommands_text (scannable_objectWritten hname hbody)
  rw [text_objectWritten, block_objectWritten hbody] at hscanned
  rw [Registrations.ofText, hscanned]
  simp only [objectRegistrations, Option.toList_some, filterMap_cons, filterMap_nil,
    fields_objectBlock hname hbody]
  rfl

end

/-- **The three forms agree on the regular expressions without a slash.** The command with a function and the reply
report every regular expression as it is written, the object literal what stands before the first slash. -/
theorem patterns_same_iff {name body text : Text} (hname : PlainLabel name) (hbody : PlainBody body)
    (htext : Unquoted text) :
    (Registrations.ofText (objectForm name body)).commands
        = [⟨name, .object ⟨some name, none, some (cutBody body, cutFlags body), none, none, none⟩⟩] ∧
      (Registrations.ofText (patternForm body)).commands = [⟨autoCommand 0, .pattern body⟩] ∧
      (Registrations.ofText (replyForm body text)).commands = [⟨autoReply 0, .reply body text⟩] ∧
      ((∀ s ∈ [objectForm name body, patternForm body, replyForm body text], patterns s = [some body]) ↔
        .scalar '/' ∉ body) := by
  have hobject := commands_objectForm hname hbody
  have hpattern := commands_patternForm hbody
  have hreply := commands_replyForm hbody htext
  refine ⟨hobject, hpattern, hreply, ?_⟩
  simp only [List.forall_mem_cons, patterns, hobject, hpattern, hreply]
  rw [← cutBody_eq_iff]
  simp [Details.pattern?]

def goBody : Text := "^\\/go$"

theorem plainBody_goBody : PlainBody goBody where
  regex := .plain (by decide) (by decide) (.escaped (by decide) (.plain (by decide) (by decide)
    (.plain (by decide) (by decide) (.plain (by decide) (by decide) .nil))))
  ne_nil := by decide
  plain := by decide
  quiet := rfl

theorem plainLabel_go : PlainLabel "go" := ⟨by decide, ⟨by decide, rfl⟩, by decide⟩

/-- The object literal keeps the beginning of the line and a backslash, and takes a letter of the word for an option. -/
theorem goBody_cut :
    PlainLabel "go" ∧ PlainBody goBody ∧ Unquoted "ok" ∧
      (Registrations.ofText (objectForm "go" goBody)).commands
        = [⟨"go", .object ⟨some "go", none, some ("^\\", "g"), none, none, none⟩⟩] ∧
      ¬ ∀ s ∈ [objectForm "go" goBody, patternForm goBody, replyForm goBody "ok"], patterns s = [some goBody] := by
  have htext : Unquoted "ok" := ⟨by decide, rfl⟩
  obtain ⟨hobject, -, -, hsame⟩ := patterns_same_iff plainLabel_go plainBody_goBody htext
  exact ⟨plainLabel_go, plainBody_goBody, htext, hobject, fun h => absurd (by decide) (hsame.mp h)⟩

def goText : Text := "mai.command(\x7b name: 'go', pattern: /^\\/go$/, execute: async (ctx) => \x7b\x7d \x7d)"

theorem goText_eq : objectForm "go" goBody = goText := by
  simp [objectForm, goText, goBody, apostrophized, Text.ofString]

/-- Two forms report the regular expression, the third does not. -/
theorem goText_differs : patterns goText = [some ("^\\" : Text)] ∧ patterns (patternForm goBody) = [some goBody] ∧
    patterns (replyForm goBody "ok") = [some goBody] := by
  have htext : Unquoted "ok" := ⟨by decide, rfl⟩
  have hobject := commands_objectForm plainLabel_go plainBody_goBody
  rw [goText_eq] at hobject
  simp only [patterns, hobject, commands_patternForm plainBody_goBody, commands_replyForm plainBody_goBody htext]
  decide

end PluginKit.Bridge
