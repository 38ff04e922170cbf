import PluginKit.Proofs.Bridge.ComponentNames

/-!
# Replies and commands line by line

A plugin file can be written line by line, each line a reply to a text or a command with a regular expression
(`Line`). Reading such a file undoes the writing (`ofText_rows`): it has no actions, and its commands are the replies
in their order, then the commands in theirs, of which those of one name are merged (`MergeOf`).
-/

namespace PluginKit.Bridge

open Text List

/-! ### Lines -/

structure ReplyLine where
  pattern : Text
  text : Text
  name : Option Text

structure PatternLine where
  body : Text
  flags : Text

inductive Line where
  | reply (r : ReplyLine)
  | command (c : PatternLine)

def nameArgument : Option Text → Text
  | none => []
  | some name => ", '" ++ name ++ "'"

def Line.text : Line → Text
  | reply r => "mai.reply('" ++ r.pattern ++ "', '" ++ r.text ++ "'" ++ nameArgument r.name ++ ");"
  | command c => "mai.command(/" ++ c.body ++ "/" ++ c.flags ++ ", async (ctx) => \x7b\x7d);"

/-- The body of a regular expression: no slash and no backslash, but behind a backslash any character that does not end
the line. -/
inductive RegexText : Text → Prop where
  | nil : RegexText []
  | plain {c : CodePoint} {s : Text} (slash : c ≠ '/') (backslash : c ≠ '\\') (rest : RegexText s) : RegexText (c :: s)
  | escaped {c : CodePoint} {s : Text} (newline : c ≠ '\n') (rest : RegexText s) : RegexText (.scalar '\\' :: c :: s)

/-- A text in which no quote and no registration stands. -/
def Unquoted (s : Text) : Prop := (∀ c ∈ s, isQuote c = false) ∧ occursIn "mai." s = false

/-- The parts of a line do not run over their ends. -/
def Line.Readable : Line → Prop
  | reply r => Unquoted r.pattern ∧ .scalar ',' ∉ r.pattern ∧ Unquoted r.text ∧ ∀ n ∈ r.name, n ≠ [] ∧ Unquoted n
  | command c =>
    RegexText c.body ∧ c.body ≠ [] ∧ occursIn "mai." c.body = false ∧ ∀ x ∈ c.flags, x ∈ ("gimsuy" : Text)

structure Row where
  line : Line
  gap : Text

def Row.text (r : Row) : Text := r.line.text ++ r.gap

structure Row.Readable (r : Row) : Prop where
  line : r.line.Readable
  gap : AllBlank r.gap

/-! ### What lines register -/

def Line.reply? : Line → Option ReplyLine
  | reply r => some r
  | command _ => none

def Line.command? : Line → Option PatternLine
  | reply _ => none
  | command c => some c

/-- What replies register: each has its name, or the number of unnamed ones before it. -/
def ReplyLine.registrations (rs : List ReplyLine) : List Registration :=
  rs.mapIdx fun i r => ⟨r.name.getD (autoReply ((rs.take i).countP (·.name.isNone))),
    .reply (Script.escapeRegex r.pattern) r.text⟩

/-- What commands register: each has the number of those before it. -/
def PatternLine.registrations (cs : List PatternLine) : List Registration :=
  cs.mapIdx fun i c => ⟨autoCommand i, .pattern c.body⟩

/-- What lines register, the replies first. -/
def Line.registrations (lines : List Line) : List Registration :=
  ReplyLine.registrations (lines.filterMap Line.reply?) ++ PatternLine.registrations (lines.filterMap Line.command?)

/-- Components merged by name: a name stands where it comes first, with what it has last. -/
structure MergeOf (items merged : List Registration) : Prop where
  names : merged.map (·.name) = (items.map (·.name)).eraseDups
  last : ∀ r ∈ merged, items.reverse.find? (·.name = r.name) = some r

/-! ### Merging -/

theorem map_name_register (r : Registration) (items : List Registration) : (register r items).map (·.name)
    = if r.name ∈ items.map (·.name) then items.map (·.name) else items.map (·.name) ++ [r.name] := by
  induction items with
  | nil => rfl
  | cons old items ih =>
    rw [register]
    split
    · next h => simp [h]
    · next h =>
      rw [map_cons, ih, map_cons]
      by_cases hmem : r.name ∈ items.map (·.name)
      · rw [if_pos hmem, if_pos (mem_cons_of_mem _ hmem)]
      · rw [if_neg hmem, if_neg, cons_append]
        exact fun hm => (mem_cons.mp hm).elim (fun he => h he.symm) hmem

theorem mem_register_of_nodup {r x : Registration} {items : List Registration} (hn : (items.map (·.name)).Nodup)
    (hx : x ∈ register r items) : x = r ∨ x ∈ items ∧ x.name ≠ r.name := by
  induction items with
  | nil => exact .inl (mem_singleton.mp hx)
  | cons old items ih =>
    rw [map_cons, nodup_cons] at hn
    rw [register] at hx
    split at hx
    · next h =>
      refine (mem_cons.mp hx).imp_right fun hx => ⟨mem_cons_of_mem old hx, fun he => hn.1 ?_⟩
      rw [h, ← he]
      exact mem_map_of_mem hx
    · next h =>
      rcases mem_cons.mp hx with rfl | hx
      · exact .inr ⟨mem_cons_self, h⟩
      · exact (ih hn.2 hx).imp_right fun hx => ⟨mem_cons_of_mem old hx.1, hx.2⟩

theorem mergeByName_snoc (items : List Registration) (r : Registration) :
    mergeByName (items ++ [r]) = register r (mergeByName items) := by
  rw [mergeByName, foldl_append]
  rfl

theorem nodup_mergeByName (items : List Registration) : ((mergeByName items).map (·.name)).Nodup := by
  induction items using List.reverseRecOn with
  | nil => exact nodup_nil
  | append_singleton items r ih =>
    rw [mergeByName_snoc, map_name_register]
    split
    · exact ih
    · next hr => exact nodup_append.mpr ⟨ih, nodup_singleton _, by grind⟩

theorem eraseDups_snoc (names : List Text) (name : Text) : (names ++ [name]).eraseDups
    = if name ∈ names then names.eraseDups else names.eraseDups ++ [name] := by
  rw [eraseDups_append, List.removeAll]
  split
  · next h => rw [filter_cons_of_neg (by simpa using h), filter_nil, eraseDups_nil, append_nil]
  · next h =>
    rw [filter_cons_of_pos (by simpa using h), filter_nil, eraseDups_cons, filter_nil,
      eraseDups_nil]

/-- **Components registered one after another are merged by name.** -/
theorem mergeOf_mergeByName (items : List Registration) : MergeOf items (mergeByName items) := by
  induction items using List.reverseRecOn with
  | nil => exact ⟨rfl, nofun⟩
  | append_singleton items r ih =>
    rw [mergeByName_snoc]
    constructor
    · rw [map_name_register, map_append, map_singleton, eraseDups_snoc, ← ih.names]
      exact if_congr mem_mergeByName rfl rfl
    · intro x hx
      rw [reverse_append, reverse_singleton, singleton_append]
      rcases mem_register_of_nodup (nodup_mergeByName items) hx with rfl | ⟨hx, hne⟩
      · exact find?_cons_of_pos (by simp)
      · -- another name: what was last under it still is
        rw [find?_cons_of_neg (by simpa using Ne.symm hne)]
        exact ih.last x hx

/-! ### Lines as registrations -/

def apostrophized (s : Text) : Text := .scalar '\'' :: (s ++ [.scalar '\''])

def spaceAt (places : List Nat) (i : Nat) : Text := if i ∈ places then " " else ""

theorem allBlank_space : AllBlank " " := by
  unfold AllBlank
  decide

theorem allBlank_spaceAt (places : List Nat) (i : Nat) : AllBlank (spaceAt places i) := by
  unfold spaceAt
  split
  · exact allBlank_space
  · exact nofun

/-- A row as a registration with its blanks and the text up to the next one. -/
def Row.written (r : Row) : Written :=
  match r.line with
  | .reply l => ⟨.reply (apostrophized l.pattern) l.text l.name, spaceAt [2, 4], '\'', false, ";" ++ r.gap⟩
  | .command l => ⟨.pattern (.regex l.body l.flags), spaceAt [3], '\'', true, "ctx) => \x7b\x7d);" ++ r.gap⟩

theorem text_written (r : Row) : r.written.text = r.text := by
  obtain ⟨⟨p, t, _ | n⟩ | ⟨b, f⟩, gap⟩ := r
  all_goals
    simp [Row.written, Row.text, Line.text, nameArgument, Written.text, Written.function, Written.arguments,
      Written.quoted, Written.nameText, Written.asyncText, Literal.text, apostrophized, spaceAt, Text.ofString]

theorem regexBody_of_regexText {body : Text} (h : RegexText body) :
    regexBody false (body ++ [.scalar '/']) = some (body, []) := by
  induction h with
  | nil => rfl
  | @plain c s hslash hbackslash _ ih =>
    rw [cons_append, regexBody, if_neg hslash, beq_eq_false_iff_ne.mpr hbackslash, ih]
    rfl
  | @escaped c s hnewline _ ih =>
    rw [cons_append, regexBody, if_neg (by decide), cons_append]
    show Option.map _ (regexBody true (c :: (s ++ [.scalar '/']))) = _
    rw [regexBody, if_neg hnewline, ih]
    rfl

theorem scannable_form {r : Row} (h : r.line.Readable) : r.written.form.Scannable := by
  obtain ⟨⟨p, t, name⟩ | ⟨b, f⟩, gap⟩ := r
  · obtain ⟨hp, hcomma, ht, hname⟩ := h
    refine ⟨⟨.scalar '\'', p ++ [.scalar '\''], rfl, rfl, by simp⟩, ?_, ht.1, fun n hn => ?_⟩
    · simpa [apostrophized] using hcomma
    · exact ⟨(hname n hn).1, (hname n hn).2.1⟩
  · obtain ⟨hbody, hne, -, hflags⟩ := h
    exact ⟨hne, regexBody_of_regexText hbody, fun c hc => contains_iff_mem.mpr (hflags c hc)⟩

theorem quiet_of_blanks {s gap : Text} (hs : .scalar '.' ∉ s) (hgap : AllBlank gap) :
    occursIn "mai." (s ++ gap) = false := by
  refine occursIn_of_not_mem (c := .scalar '.') (by decide) fun h => ?_
  exact (mem_append.mp h).elim hs (Written.not_mem_of_allBlank hgap (by decide))

theorem quiet_nameArgument {name : Option Text} (hname : ∀ n ∈ name, occursIn "mai." n = false) {gap : Text}
    (hgap : AllBlank gap) : occursIn "mai." (nameArgument name ++ ((");" : Text) ++ gap)) = false := by
  have hquote : CodePoint.scalar '\'' ∉ ("mai." : Text) := by decide
  have hclose : occursIn "mai." ((");" : Text) ++ gap) = false := quiet_of_blanks (by decide) hgap
  cases name with
  | none => exact hclose
  | some n =>
    have htext : nameArgument (some n) ++ ((");" : Text) ++ gap)
        = (", " : Text) ++ .scalar '\'' :: (n ++ .scalar '\'' :: ((");" : Text) ++ gap)) := by
      simp [nameArgument, Text.ofString]
    rw [htext]
    exact occursIn_append_cons hquote rfl (occursIn_append_cons hquote (hname n rfl) hclose)

theorem quiet_text {r : Row} (h : r.Readable) : occursIn "mai." (r.text.drop 1) = false := by
  obtain ⟨⟨p, t, name⟩ | ⟨b, f⟩, gap⟩ := r
  · obtain ⟨⟨hp, -, ht, hname⟩, hgap⟩ := h
    have hquote : CodePoint.scalar '\'' ∉ ("mai." : Text) := by decide
    have htext : (Row.text ⟨.reply ⟨p, t, name⟩, gap⟩).drop 1 = ("ai.reply(" : Text) ++ .scalar '\'' :: (p ++
        .scalar '\'' :: ((", " : Text) ++ .scalar '\'' :: (t ++ .scalar '\'' ::
          (nameArgument name ++ ((");" : Text) ++ gap))))) := by
      simp [Row.text, Line.text, Text.ofString]
    rw [htext]
    have hend := quiet_nameArgument (fun n hn => (hname n hn).2.2) hgap
    exact occursIn_append_cons hquote rfl (occursIn_append_cons hquote hp.2
      (occursIn_append_cons hquote rfl (occursIn_append_cons hquote ht.2 hend)))
  · obtain ⟨⟨-, -, hbody, hflags⟩, hgap⟩ := h
    have hslash : CodePoint.scalar '/' ∉ ("mai." : Text) := by decide
    -- the options may begin like a registration, but there is no point behind them
    have hpoint : CodePoint.scalar '.' ∉ f ++ (", async (ctx) => \x7b\x7d);" : Text) := by
      intro hm
      rcases mem_append.mp hm with hm | hm
      · exact absurd (hflags _ hm) (by decide)
      · exact absurd hm (by decide)
    have htext : (Row.text ⟨.command ⟨b, f⟩, gap⟩).drop 1 = ("ai.command(" : Text) ++ .scalar '/' :: (b ++
        .scalar '/' :: (f ++ (", async (ctx) => \x7b\x7d);" : Text) ++ gap)) := by
      simp [Row.text, Line.text, Text.ofString]
    rw [htext]
    exact occursIn_append_cons hslash rfl (occursIn_append_cons hslash hbody (quiet_of_blanks hpoint hgap))

theorem scannable_written {r : Row} (h : r.Readable) : r.written.Scannable where
  form := scannable_form h.line
  pad i := by
    obtain ⟨_ | _, gap⟩ := r
    · exact allBlank_spaceAt _ i
    · exact allBlank_spaceAt _ i
  quote := by
    obtain ⟨_ | _, gap⟩ := r
    · rfl
    · rfl
  closed role before name hform := by
    obtain ⟨_ | _, gap⟩ := r
    · cases hform
    · cases hform
  quiet := by
    rw [text_written]
    exact quiet_text h

/-! ### Reading lines -/

def rowsFile (rows : List Row) : SourceFile := ⟨[], rows.map Row.written⟩

theorem text_rowsFile (rows : List Row) : (rowsFile rows).text = rows.flatMap Row.text := by
  rw [SourceFile.text, rowsFile, nil_append, flatMap_map]
  exact flatMap_congr fun r _ => text_written r

theorem scannable_rowsFile {rows : List Row} (h : ∀ r ∈ rows, r.Readable) : (rowsFile rows).Scannable := by
  refine ⟨rfl, fun w hw => ?_⟩
  obtain ⟨r, hr, rfl⟩ := mem_map.mp hw
  exact scannable_written (h r hr)

def ReplyLine.call (l : ReplyLine) : ReplyCall := ⟨apostrophized l.pattern, l.text, l.name⟩

theorem trim_apostrophized {p : CodePoint → Bool} (h : p (.scalar '\'') = false) (s : Text) :
    trim p (apostrophized s) = apostrophized s := by
  refine trim_of_avoids (avoids_cons h) ?_
  rw [apostrophized, reverse_cons, reverse_append]
  exact avoids_cons h

theorem filterMap_reply? (rows : List Row) : (rows.map Row.written).filterMap Written.reply?
    = ((rows.map Row.line).filterMap Line.reply?).map ReplyLine.call := by
  rw [filterMap_map, filterMap_map, map_filterMap]
  refine filterMap_congr fun r _ => ?_
  obtain ⟨⟨p, t, name⟩ | c, gap⟩ := r
  · exact congrArg (fun source => some (ReplyCall.mk source t name)) (trim_apostrophized (by decide) p)
  · rfl

theorem filterMap_pattern? (rows : List Row) : (rows.map Row.written).filterMap Written.pattern?
    = ((rows.map Row.line).filterMap Line.command?).map PatternLine.body := by
  rw [filterMap_map, filterMap_map, map_filterMap]
  refine filterMap_congr fun r _ => ?_
  obtain ⟨_ | _, gap⟩ := r
  · rfl
  · rfl

theorem filterMap_catchAll? (rows : List Row) : (rows.map Row.written).filterMap Written.catchAll? = [] := by
  rw [filterMap_map, filterMap_eq_nil_iff]
  intro r _
  obtain ⟨_ | _, gap⟩ := r
  · rfl
  · rfl

theorem filterMap_block? (rows : List Row) (role : Role) :
    (rows.map Row.written).filterMap (Written.block? role) = [] := by
  rw [filterMap_map, filterMap_eq_nil_iff]
  intro r _
  obtain ⟨_ | _, gap⟩ := r
  · rfl
  · rfl

theorem replyPattern_apostrophized {s : Text} (h : ∀ c ∈ s, isQuote c = false) :
    replyPattern (apostrophized s) = Script.escapeRegex s := by
  have hquote : isQuote (.scalar '\'') = true := rfl
  have htrim : trim isQuote (apostrophized s) = s := by
    cases s with
    | nil => rfl
    | cons c s =>
      have hhead : (apostrophized (c :: s)).dropWhile isQuote = c :: s ++ [.scalar '\''] := by
        rw [apostrophized, dropWhile_cons_of_pos hquote, cons_append,
          dropWhile_cons_of_neg (by rw [h c mem_cons_self]; decide)]
      have hlast : ((c :: s).reverse).dropWhile isQuote = (c :: s).reverse := by
        refine dropWhile_of_avoids fun d hd => h d ?_
        exact mem_reverse.mp (mem_of_mem_head? hd)
      rw [trim, hhead, reverse_append, reverse_singleton, singleton_append,
        dropWhile_cons_of_pos hquote, hlast, reverse_reverse]
  exact congrArg Script.escapeRegex htrim

theorem replyRegistrations_eq (calls : List ReplyCall) : ∀ next : Nat,
    replyRegistrations next calls = calls.mapIdx fun i call =>
      ⟨call.name.getD (autoReply (next + (calls.take i).countP (·.name.isNone))),
        .reply (replyPattern call.source) call.text⟩ := by
  induction calls with
  | nil => exact fun _ => rfl
  | cons call calls ih =>
    intro next
    rw [replyRegistrations, mapIdx_cons]
    cases hname : call.name with
    | some name =>
      simp only [take_zero, take_succ_cons, countP_cons, hname]
      exact congrArg _ (ih next)
    | none =>
      simp only [take_zero, take_succ_cons, countP_cons, hname]
      refine congrArg _ ((ih (next + 1)).trans ?_)
      simp [Nat.add_assoc, Nat.add_comm 1]

theorem numberedCommands_eq (details : List Details) : ∀ next : Nat,
    numberedCommands next details = details.mapIdx fun i d => ⟨autoCommand (next + i), d⟩ := by
  induction details with
  | nil => exact fun _ => rfl
  | cons d details ih =>
    intro next
    rw [numberedCommands, mapIdx_cons, ih]
    simp [autoCommand, Nat.add_comm, Nat.add_left_comm]

theorem mapIdx_map {α β γ : Type} (f : Nat → β → γ) (g : α → β) (items : List α) :
    (items.map g).mapIdx f = items.mapIdx fun i a => f i (g a) :=
  ext_getElem (by simp) fun i _ _ => by simp

theorem replyRegistrations_call {ls : List ReplyLine} (h : ∀ l ∈ ls, ∀ c ∈ l.pattern, isQuote c = false) (next : Nat) :
    replyRegistrations next (ls.map ReplyLine.call) = ls.mapIdx fun i l =>
      ⟨l.name.getD (autoReply (next + (ls.take i).countP (·.name.isNone))),
        .reply (Script.escapeRegex l.pattern) l.text⟩ := by
  rw [replyRegistrations_eq, mapIdx_map, mapIdx_eq_mapIdx_iff]
  intro i hi
  simp [ReplyLine.call, replyPattern_apostrophized (h _ (getElem_mem hi)), ← map_take, countP_map,
    Function.comp_def]

theorem numberedCommands_pattern (cs : List PatternLine) (next : Nat) :
    numberedCommands next (cs.map fun c => Details.pattern c.body)
      = cs.mapIdx fun i c => ⟨autoCommand (next + i), .pattern c.body⟩ := by
  rw [numberedCommands_eq, mapIdx_map]

theorem scannedCommands_rows {rows : List Row} (h : ∀ r ∈ rows, r.Readable) :
    scannedCommands (rows.flatMap Row.text) = Line.registrations (rows.map Row.line) := by
  have hf := scannable_rowsFile h
  have hreply : ∀ l ∈ (rows.map Row.line).filterMap Line.reply?, ∀ c ∈ l.pattern, isQuote c = false := by
    intro l hl
    obtain ⟨line, hline, hl⟩ := mem_filterMap.mp hl
    obtain ⟨r, hr, rfl⟩ := mem_map.mp hline
    have hreadable := (h r hr).line
    cases hline : r.line with
    | command c =>
      rw [hline] at hl
      cases hl
    | reply l' =>
      rw [hline] at hl hreadable
      cases hl
      exact hreadable.1.1
  have hcommands := numberedCommands_pattern ((rows.map Row.line).filterMap Line.command?) 0
  have hobjects := findAll_objectCall hf .command
  rw [Written.roleFunction, rowsFile, filterMap_block?, ← rowsFile] at hobjects
  rw [← text_rowsFile, scannedCommands, findAll_replyCall hf, hobjects, findAll_patternCall hf,
    findAll_catchAllCall hf, rowsFile, filterMap_reply?, filterMap_pattern?, filterMap_catchAll?,
    replyRegistrations_call hreply, objectRegistrations, filterMap_nil, map_nil, append_nil,
    append_nil, map_map, Line.registrations, ReplyLine.registrations, PatternLine.registrations]
  simp only [Nat.zero_add] at hcommands ⊢
  rw [← hcommands]
  rfl

/-- **Reading undoes writing.** A file of lines has no actions, and its commands are the replies and then the commands
of its lines, merged by name. -/
theorem ofText_rows {rows : List Row} (h : ∀ r ∈ rows, r.Readable) :
    (Registrations.ofText (rows.flatMap Row.text)).actions = [] ∧
      MergeOf (Line.registrations (rows.map Row.line)) (Registrations.ofText (rows.flatMap Row.text)).commands := by
  constructor
  · have hobjects := findAll_objectCall (scannable_rowsFile h) .action
    rw [Written.roleFunction, text_rowsFile, rowsFile, filterMap_block?] at hobjects
    rw [Registrations.ofText, hobjects]
    rfl
  · rw [Registrations.ofText, scannedCommands_rows h]
    exact mergeOf_mergeByName _

/-- A reply under the name of another one, two without a name, and a command whose pattern has a slash. -/
def greetingRows : List Row := [
  ⟨.reply ⟨"/hi", "Hi", some "greet"⟩, "\n"⟩,
  ⟨.command ⟨"^a\\/b$", "i"⟩, ""⟩,
  ⟨.reply ⟨"a.b", "Dot", none⟩, "\n"⟩,
  ⟨.reply ⟨"/hello", "Hello", some "greet"⟩, "\n"⟩,
  ⟨.reply ⟨"", "", none⟩, "\n"⟩]

theorem greetingRows_readable : ∀ r ∈ greetingRows, r.Readable := by
  have hgap : AllBlank "\n" := by
    unfold AllBlank
    decide
  have hempty : AllBlank "" := nofun
  have hbody : RegexText "^a\\/b$" :=
    .plain (by decide) (by decide) (.plain (by decide) (by decide) (.escaped (by decide)
      (.plain (by decide) (by decide) (.plain (by decide) (by decide) .nil))))
  have hgreet : ∀ n ∈ some ("greet" : Text), n ≠ [] ∧ Unquoted n := by
    intro n hn
    cases hn
    exact ⟨by decide, by decide, rfl⟩
  have hnone : ∀ n ∈ (none : Option Text), n ≠ [] ∧ Unquoted n := nofun
  simp only [greetingRows, forall_mem_cons]
  exact ⟨⟨⟨⟨by decide, rfl⟩, by decide, ⟨by decide, rfl⟩, hgreet⟩, hgap⟩,
    ⟨⟨hbody, by decide, rfl, by decide⟩, hempty⟩,
    ⟨⟨⟨by decide, rfl⟩, by decide, ⟨by decide, rfl⟩, hnone⟩, hgap⟩,
    ⟨⟨⟨by decide, rfl⟩, by decide, ⟨by decide, rfl⟩, hgreet⟩, hgap⟩,
    ⟨⟨⟨by decide, rfl⟩, by decide, ⟨by decide, rfl⟩, hnone⟩, hgap⟩, nofun⟩

/-- The later reply stands under the name, at the place of the first one. -/
theorem greetingRows_read : (∀ r ∈ greetingRows, r.Readable) ∧
    MergeOf [⟨"greet", .reply "/hi" "Hi"⟩, ⟨"auto_reply_0", .reply "a\\.b" "Dot"⟩,
        ⟨"greet", .reply "/hello" "Hello"⟩, ⟨"auto_reply_1", .reply "" ""⟩, ⟨"auto_cmd_0", .pattern "^a\\/b$"⟩]
      (Registrations.ofText (greetingRows.flatMap Row.text)).commands ∧
    (Registrations.ofText (greetingRows.flatMap Row.text)).commands.map (·.name)
      = ["greet", "auto_reply_0", "auto_reply_1", "auto_cmd_0"] := by
  have hread := (ofText_rows greetingRows_readable).2
  have hitems : Line.registrations (greetingRows.map Row.line) = [⟨"greet", .reply "/hi" "Hi"⟩,
      ⟨"auto_reply_0", .reply "a\\.b" "Dot"⟩, ⟨"greet", .reply "/hello" "Hello"⟩, ⟨"auto_reply_1", .reply "" ""⟩,
      ⟨"auto_cmd_0", .pattern "^a\\/b$"⟩] := by decide +kernel
  rw [hitems] at hread
  refine ⟨greetingRows_readable, hread, hread.names.trans ?_⟩
  decide +kernel

end PluginKit.Bridge
