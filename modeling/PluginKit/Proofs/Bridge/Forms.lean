import PluginKit.Bridge.Registration
import PluginKit.Proofs.Text.Search
import PluginKit.Role

/-!
# Registrations as they are written

A plugin file is a sequence of registrations in a few forms: a reply with or without a name, a command with a
pattern and a function, a command with a function alone, and a command or an action with an object literal.
`Written` is one of them with all its blanks, quotes and the text up to the next. The scanner for its form reads
it up to where the form is decided, whatever follows.
-/

namespace PluginKit.Bridge

open Text List

variable {c q opening closing : CodePoint} {s source name before : Text} {role : Role}

variable {w : Written} {literal : Literal}

/-! ### Forms -/

/-- The pattern of a command as it is written. -/
inductive Literal where
  | regex (body flags : Text)
  | quoted (quote : CodePoint) (content : Text)

def Literal.text : Literal → Text
  | regex body flags => .scalar '/' :: (body ++ .scalar '/' :: flags)
  | quoted quote content => quote :: (content ++ [quote])

/-- A pattern that is not empty and ends at its last slash or quote. -/
def Literal.Closed : Literal → Prop
  | regex body flags =>
    body ≠ [] ∧ regexBody false (body ++ [.scalar '/']) = some (body, []) ∧ ∀ c ∈ flags, isFlag c = true
  | quoted quote content => isQuote quote = true ∧ content ≠ [] ∧ quote ∉ content

inductive Form where
  /-- A reply: what it answers, as written, its text and its name. -/
  | reply (source text : Text) (name : Option Text)
  | pattern (literal : Literal)
  | catchAll
  /-- A component with an object literal: what stands in it before the key of the name, and the name. -/
  | object (role : Role) (before name : Text)

/-- A name that is not empty and needs no escapes. -/
def PlainName (name : Text) : Prop := name ≠ [] ∧ ∀ c ∈ name, isQuote c = false ∧ c ≠ '\\' ∧ c ≠ '\x7d'

/-- The parts of a form can be told apart. -/
def Form.WellFormed : Form → Prop
  | reply source text name =>
    (∃ c s, source = c :: s ∧ (isQuote c || c == '/') = true ∧ s ≠ []) ∧ .scalar ',' ∉ source ∧
      (∀ c ∈ text, isQuote c = false) ∧ ∀ n ∈ name, PlainName n
  | pattern literal => literal.Closed
  | catchAll => True
  | object _ before name => .scalar '\x7d' ∉ before ∧ occursIn "name" before = false ∧ PlainName name

/-- The passes can tell the parts of a form apart. -/
def Form.Scannable : Form → Prop
  | reply source text name =>
    (∃ c s, source = c :: s ∧ (isQuote c || c == '/') = true ∧ s ≠ []) ∧ .scalar ',' ∉ source ∧
      (∀ c ∈ text, isQuote c = false) ∧ ∀ n ∈ name, n ≠ [] ∧ ∀ c ∈ n, isQuote c = false
  | pattern literal => literal.Closed
  | catchAll => True
  | object _ before name => .scalar '\x7d' ∉ before ∧ .scalar '\x7d' ∉ name

theorem Form.WellFormed.scannable {form : Form} (h : form.WellFormed) : form.Scannable := by
  cases form with
  | reply source text name =>
    obtain ⟨hsource, hcomma, htext, hname⟩ := h
    exact ⟨hsource, hcomma, htext, fun n hn => ⟨(hname n hn).1, fun c hc => ((hname n hn).2 c hc).1⟩⟩
  | pattern literal => exact h
  | catchAll => exact h
  | object role before name =>
    obtain ⟨hbefore, -, -, hname⟩ := h
    exact ⟨hbefore, fun hm => (hname _ hm).2.2 rfl⟩

/-- A registration in the text of a plugin file. -/
structure Written where
  form : Form
  pad : Nat → Text
  quote : CodePoint
  isAsync : Bool
  /-- The text from where the form is decided up to the next registration. -/
  rest : Text

namespace Written

def function (w : Written) : Text :=
  match w.form with
  | .reply _ _ _ => "mai.reply"
  | .pattern _ => "mai.command"
  | .catchAll => "mai.command"
  | .object .command _ _ => "mai.command"
  | .object .action _ _ => "mai.action"

def quoted (w : Written) (s : Text) : Text := w.quote :: (s ++ [w.quote])

def nameText (w : Written) : Option Text → Text
  | none => []
  | some name => w.pad 3 ++ (.scalar ',' :: (w.pad 4 ++ w.quoted name))

/-- The word that makes a function asynchronous, with a blank behind it. -/
def asyncText (w : Written) : Text :=
  if w.isAsync then "async" ++ (.scalar ' ' :: w.pad 4) else []

def arguments (w : Written) : Text :=
  match w.form with
  | .reply source text name =>
    source ++ (.scalar ',' :: (w.pad 2 ++ (w.quoted text ++ (w.nameText name ++ (w.pad 5 ++ [.scalar ')'])))))
  | .pattern literal => literal.text ++ (w.pad 2 ++ (.scalar ',' :: (w.pad 3 ++ (w.asyncText ++ [.scalar '(']))))
  | .catchAll => w.asyncText ++ "(ctx)"
  | .object _ before name =>
    .scalar '\x7b' :: (before ++ ("name" ++ (w.pad 2 ++ (.scalar ':' :: (w.pad 3 ++ w.quoted name)))))

def text (w : Written) : Text :=
  w.function ++ (w.pad 0 ++ (.scalar '(' :: (w.pad 1 ++ (w.arguments ++ w.rest))))

/-- A registration whose parts can be told apart, and behind whose beginning no other one begins. -/
structure WellFormed (w : Written) : Prop where
  form : w.form.WellFormed
  pad : ∀ i, AllBlank (w.pad i)
  quote : isQuote w.quote = true
  closed : ∀ role before name, w.form = .object role before name → .scalar '\x7d' ∈ w.rest
  quiet : occursIn "mai." (w.text.drop 1) = false

/-- A registration that the passes find, and behind whose beginning they find no other one. -/
structure Scannable (w : Written) : Prop where
  form : w.form.Scannable
  pad : ∀ i, AllBlank (w.pad i)
  quote : isQuote w.quote = true
  closed : ∀ role before name, w.form = .object role before name → .scalar '\x7d' ∈ w.rest
  quiet : occursIn "mai." (w.text.drop 1) = false

theorem WellFormed.scannable (h : w.WellFormed) : w.Scannable :=
  ⟨h.form.scannable, h.pad, h.quote, h.closed, h.quiet⟩

end Written

/-! ### Reading the parts -/

theorem isBlank_of_isQuote (h : isQuote c = true) : isBlank c = false := by
  simp only [isQuote, Bool.or_eq_true, beq_iff_eq] at h
  rcases h with rfl | rfl
  · decide
  · decide

theorem openCall_append (function : Text) {p q : Text} (hp : AllBlank p) (hq : AllBlank q)
    (hs : Avoids isBlank s) : openCall function (function ++ (p ++ .scalar '(' :: (q ++ s))) = some s := by
  have hbracket : afterBlanks "(" (p ++ .scalar '(' :: (q ++ s)) = some (q ++ s) :=
    afterBlanks_append hp (by decide) _
  simp only [openCall, after_append, Option.bind_eq_bind, Option.bind_some, hbracket]
  rw [skipBlanks_append hq hs]
  rfl

theorem openCall_eq_none {function : Text} (h : ¬ function <+: s) : openCall function s = none := by
  rw [openCall, after_eq_none h]
  rfl

/-- The scanner finds nothing unless a call of the function begins there, and its first argument is as it should be. -/
def Calls {α β : Type} (function : Text) (first : Text → Option β) (scan : Scanner α) : Prop :=
  ∀ s, (openCall function s).bind first = none → scan s = none

theorem calls_of {α β : Type} {function : Text} {first : Text → Option β} {scan reads : Scanner α}
    (hscan : ∀ s, scan s = (openCall function s).bind reads) (hreads : ∀ s, first s = none → reads s = none) :
    Calls function first scan := by
  intro s h
  rw [hscan]
  cases hs : openCall function s with
  | none => rfl
  | some s' => exact hreads s' (by rwa [hs] at h)

theorem calls_reply : Calls "mai.reply" replySource replyCall :=
  calls_of (fun _ => rfl) fun s h => by simp [h]

theorem calls_pattern : Calls "mai.command" commandPattern patternCall :=
  calls_of (fun _ => rfl) fun s h => by simp [h]

theorem calls_catchAll : Calls "mai.command" (fun s => after "(ctx)" (skipAsync s)) catchAllCall :=
  calls_of (fun _ => rfl) fun s h => by simp [h]

theorem calls_object (function : Text) : Calls function (bracketed '\x7b' '\x7d') (objectCall function) := fun _ h => h

theorem replySource_append {t : Text} (hc : (isQuote c || c == '/') = true) (hs : s ≠ [])
    (hcomma : CodePoint.scalar ',' ∉ c :: s) :
    replySource (c :: s ++ .scalar ',' :: t) = some (trim isBlank (c :: s), t) := by
  have hrun : (c :: s ++ .scalar ',' :: t).takeWhile (fun (d : CodePoint) => d != ',') = c :: s := by
    refine takeWhile_run (fun d hd => ?_) (avoids_cons rfl)
    rw [bne_iff_ne]
    rintro rfl
    exact hcomma hd
  have hcons : c :: s ≠ [c] := fun h => hs (List.cons.inj h).2
  have hchar : takeChar (fun (d : CodePoint) => isQuote d || d == '/') (c :: s ++ .scalar ',' :: t)
      = some (c, s ++ .scalar ',' :: t) := takeChar_cons hc _
  simp only [replySource, hchar, hrun, Option.bind_eq_bind, Option.bind_some, if_neg hcons, drop_left]
  exact congrArg (Option.map fun r => (trim isBlank (c :: s), r)) (after_append "," t)

theorem avoids_quote (hq : isQuote q = true) (s : Text) :
    Avoids (fun c => !isQuote c) (q :: s) := avoids_cons (by rw [hq]; rfl)

theorem replyText_append (hq : isQuote q = true) {text : Text}
    (ht : ∀ c ∈ text, isQuote c = false) (s : Text) :
    replyText (q :: (text ++ q :: s)) = some (text, s) := by
  have hrun : (text ++ q :: s).takeWhile (fun c => !isQuote c) = text :=
    takeWhile_run (fun c hc => by rw [ht c hc]; rfl) (avoids_quote hq s)
  simp only [replyText, takeChar_cons hq, Option.bind_eq_bind, Option.bind_some, hrun, drop_left]
  rfl

theorem quotedText_append (hq : isQuote q = true) {text : Text} (hne : text ≠ [])
    (ht : ∀ c ∈ text, isQuote c = false) (s : Text) :
    quotedText (q :: (text ++ q :: s)) = some (text, s) := by
  have hrun : takeRun (fun c => !isQuote c) (text ++ q :: s) = some (text, q :: s) :=
    takeRun_append (fun c hc => by rw [ht c hc]; rfl) hne (avoids_quote hq s)
  simp only [quotedText, takeChar_cons hq, Option.bind_eq_bind, Option.bind_some, hrun]
  rfl

theorem bracketed_append {inside : Text} (hne : inside ≠ [])
    (hc : closing ∉ inside) (s : Text) :
    bracketed opening closing (opening :: (inside ++ closing :: s)) = some (inside, s) := by
  have hopen : takeChar (fun c => c == opening) (opening :: (inside ++ closing :: s))
      = some (opening, inside ++ closing :: s) := takeChar_cons (beq_self_eq_true _) _
  have hrun : takeRun (fun c => c != closing) (inside ++ closing :: s) = some (inside, closing :: s) := by
    refine takeRun_append (fun c hc' => ?_) hne (avoids_cons (by simp))
    rw [bne_iff_ne]
    rintro rfl
    exact hc hc'
  have hclose : takeChar (fun c => c == closing) (closing :: s) = some (closing, s) :=
    takeChar_cons (beq_self_eq_true _) _
  simp only [bracketed, hopen, Option.bind_eq_bind, Option.bind_some, hrun, hclose]
  rfl

/-- What was read up to the closing slash does not depend on what follows. -/
theorem regexBody_append {escaped : Bool} {body v : Text} (h : regexBody escaped s = some (body, v)) (t : Text) :
    regexBody escaped (s ++ t) = some (body, v ++ t) := by
  induction s generalizing escaped body with
  | nil => cases escaped <;> cases h
  | cons c s ih =>
    cases escaped with
    | true =>
      rw [regexBody] at h
      rw [cons_append, regexBody]
      split at h
      · cases h
      · next hc =>
        rw [if_neg hc]
        obtain ⟨⟨b, u⟩, hb, he⟩ := Option.map_eq_some_iff.mp h
        cases he
        rw [ih hb]
        rfl
    | false =>
      rw [regexBody] at h
      rw [cons_append, regexBody]
      split at h
      · next hc =>
        cases h
        rw [if_pos hc]
      · next hc =>
        rw [if_neg hc]
        obtain ⟨⟨b, u⟩, hb, he⟩ := Option.map_eq_some_iff.mp h
        cases he
        rw [ih hb]
        rfl

theorem isFlag_of_isBlank (h : isBlank c = true) : isFlag c = false := by
  by_contra hf
  rw [Bool.not_eq_false, isFlag, contains_iff_mem] at hf
  have hall : ∀ d ∈ ("gimsuy" : Text), isBlank d = false := by decide
  rw [hall c hf] at h
  cases h

theorem avoids_isFlag_append {pad : Text} (hp : AllBlank pad) (hc : isFlag c = false) (s : Text) :
    Avoids isFlag (pad ++ c :: s) := by
  cases pad with
  | nil => exact avoids_cons hc
  | cons d pad => exact avoids_cons (isFlag_of_isBlank (hp d mem_cons_self))

def Literal.pattern : Literal → Text
  | regex body _ => body
  | quoted _ content => trim isQuote content

theorem stringLiteral_append {content : Text} (hne : content ≠ []) (hq : q ∉ content) (s : Text) :
    stringLiteral q (q :: (content ++ q :: s)) = some (content, s) :=
  bracketed_append hne hq s

theorem commandPattern_append (h : literal.Closed) (hs : Avoids isFlag s) :
    commandPattern (literal.text ++ s) = some (literal.pattern, s) := by
  cases literal with
  | regex body flags =>
    obtain ⟨hne, hbody, hflags⟩ := h
    have happ : (Literal.regex body flags).text ++ s = .scalar '/' :: (body ++ .scalar '/' :: (flags ++ s)) := by
      simp [Literal.text]
    have hafter : after "/" (.scalar '/' :: (body ++ .scalar '/' :: (flags ++ s)))
        = some (body ++ .scalar '/' :: (flags ++ s)) := after_append "/" _
    have hread : regexBody false (body ++ .scalar '/' :: (flags ++ s)) = some (body, flags ++ s) := by
      have := regexBody_append hbody (flags ++ s)
      rwa [append_assoc, singleton_append, nil_append] at this
    have hemp : body.isEmpty = false := by simpa using hne
    rw [happ]
    show regexLiteral _ = _
    simp only [regexLiteral, hafter, hread, hemp, Option.bind_eq_bind, Option.bind_some, Bool.false_eq_true,
      if_false, dropWhile_run hflags hs]
    rfl
  | quoted q content =>
    obtain ⟨hq, hne, hnot⟩ := h
    have happ : (Literal.quoted q content).text ++ s = q :: (content ++ q :: s) := by
      simp [Literal.text]
    have hread := stringLiteral_append hne hnot s
    simp only [isQuote, Bool.or_eq_true, beq_iff_eq] at hq
    rw [happ]
    rcases hq with rfl | rfl
    · show (stringLiteral '"' _).map _ = _
      rw [hread]
      rfl
    · show (stringLiteral '\'' _).map _ = _
      rw [hread]
      rfl

theorem Written.skipAsync_append (hw : w.Scannable) (s : Text) :
    skipAsync (w.asyncText ++ .scalar '(' :: s) = .scalar '(' :: s := by
  unfold asyncText
  split
  · have hafter : after "async" ("async" ++ (.scalar ' ' :: w.pad 4) ++ .scalar '(' :: s)
        = some (.scalar ' ' :: (w.pad 4 ++ .scalar '(' :: s)) := by
      rw [append_assoc, cons_append, after_append]
    have hblank : isBlank (.scalar ' ') = true := by decide
    simp only [skipAsync, hafter, hblank, if_true]
    exact skipBlanks_append (hw.pad 4) (avoids_cons (by decide))
  · rfl

/-! ### Reading a registration -/

namespace Written

theorem text_append (w : Written) (t : Text) :
    w.text ++ t = w.function ++ (w.pad 0 ++ .scalar '(' :: (w.pad 1 ++ (w.arguments ++ (w.rest ++ t)))) := by
  simp only [text, append_assoc, cons_append]

theorem isBlank_of_isSourceStart (h : (isQuote c || c == '/') = true) : isBlank c = false := by
  rcases Bool.or_eq_true_iff.mp h with hq | hs
  · exact isBlank_of_isQuote hq
  · rw [beq_iff_eq.mp hs]
    decide

theorem avoids_asyncText (w : Written) (s : Text) : Avoids isBlank (w.asyncText ++ .scalar '(' :: s) := by
  unfold asyncText
  split
  · exact avoids_cons (by decide)
  · exact avoids_cons (by decide)

theorem avoids_arguments (hw : w.Scannable) (t : Text) : Avoids isBlank (w.arguments ++ t) := by
  have hform := hw.form
  unfold arguments
  cases h : w.form with
  | reply source text name =>
    rw [h] at hform
    obtain ⟨⟨c, s, rfl, hc, -⟩, -⟩ := hform
    exact avoids_cons (isBlank_of_isSourceStart hc)
  | pattern literal =>
    rw [h] at hform
    cases literal with
    | regex body flags => exact avoids_cons (by decide)
    | quoted q content => exact avoids_cons (isBlank_of_isQuote hform.1)
  | catchAll =>
    simp only [append_assoc]
    exact w.avoids_asyncText _
  | object role before name => exact avoids_cons (by decide)

theorem openCall_text (hw : w.Scannable) (t : Text) :
    openCall w.function (w.text ++ t) = some (w.arguments ++ (w.rest ++ t)) := by
  rw [text_append]
  exact openCall_append _ (hw.pad 0) (hw.pad 1) (avoids_arguments hw _)

/-! ### Other functions -/

def functions : List Text := ["mai.reply", "mai.command", "mai.action"]

theorem function_mem (w : Written) : w.function ∈ functions := by
  obtain ⟨form, pad, quote, isAsync, rest⟩ := w
  rcases form with _ | _ | _ | ⟨_ | _, _, _⟩ <;> simp [function, functions]

theorem not_prefix_of_functions : ∀ f ∈ functions, ∀ g ∈ functions, f ≠ g → ¬ f <+: g := by decide

theorem function_reply {text : Text} {name : Option Text}
    (h : w.form = .reply source text name) : w.function = "mai.reply" := by rw [function, h]

theorem function_pattern (h : w.form = .pattern literal) :
    w.function = "mai.command" := by rw [function, h]

theorem function_catchAll (h : w.form = .catchAll) : w.function = "mai.command" := by
  rw [function, h]

theorem openCall_other {function : Text} (w : Written) (hf : function ∈ functions) (h : w.function ≠ function)
    (t : Text) : openCall function (w.text ++ t) = none := by
  refine openCall_eq_none fun hp => ?_
  rw [text_append] at hp
  rcases prefix_or_prefix_of_prefix hp (prefix_append w.function _) with hfg | hgf
  · exact not_prefix_of_functions _ hf _ w.function_mem h.symm hfg
  · exact not_prefix_of_functions _ w.function_mem _ hf h hgf

/-! ### Replies -/

/-- What the pass over the replies finds. -/
def reply? (w : Written) : Option ReplyCall :=
  match w.form with
  | .reply source text name => some ⟨trim isBlank source, text, name⟩
  | _ => none

theorem replyName_none (hw : w.Scannable) (s : Text) : replyName (w.pad 5 ++ .scalar ')' :: s) = none := by
  have h : afterBlanks "," (w.pad 5 ++ .scalar ')' :: s) = none :=
    afterBlanks_of_ne (hw.pad 5) (by decide) (by decide) s
  rw [replyName, h]
  rfl

theorem replyName_some (hw : w.Scannable) (hn : name ≠ [])
    (hq : ∀ c ∈ name, isQuote c = false) (s : Text) : replyName (w.nameText (some name) ++ s) = some (name, s) := by
  have happ : w.nameText (some name) ++ s
      = w.pad 3 ++ .scalar ',' :: (w.pad 4 ++ w.quote :: (name ++ w.quote :: s)) := by
    simp [nameText, quoted]
  have hcomma : afterBlanks "," (w.pad 3 ++ .scalar ',' :: (w.pad 4 ++ w.quote :: (name ++ w.quote :: s)))
      = some (w.pad 4 ++ w.quote :: (name ++ w.quote :: s)) :=
    afterBlanks_append (hw.pad 3) (by decide) _
  have hskip := skipBlanks_append (hw.pad 4) (avoids_cons (s := name ++ w.quote :: s) (isBlank_of_isQuote hw.quote))
  simp only [happ, replyName, hcomma, Option.bind_eq_bind, Option.bind_some, hskip]
  exact quotedText_append hw.quote hn hq s

theorem replyCall_reply (hw : w.Scannable) {text : Text} {name : Option Text}
    (h : w.form = .reply source text name) (t : Text) :
    replyCall (w.text ++ t) = some (⟨trim isBlank source, text, name⟩, w.rest ++ t) := by
  have hform := hw.form
  rw [h] at hform
  obtain ⟨⟨c, s, rfl, hc, hs⟩, hcomma, htext, hname⟩ := hform
  have hopen := openCall_text hw t
  have hfunction := function_reply h
  have hargs : w.arguments ++ (w.rest ++ t) = c :: s ++ .scalar ',' :: (w.pad 2 ++ w.quote :: (text ++ w.quote ::
      (w.nameText name ++ (w.pad 5 ++ .scalar ')' :: (w.rest ++ t))))) := by
    simp [arguments, h, quoted]
  have hsource := replySource_append (t := w.pad 2 ++ w.quote :: (text ++ w.quote ::
      (w.nameText name ++ (w.pad 5 ++ .scalar ')' :: (w.rest ++ t))))) hc hs hcomma
  have hskip := skipBlanks_append (s := w.quote :: (text ++ w.quote ::
      (w.nameText name ++ (w.pad 5 ++ .scalar ')' :: (w.rest ++ t))))) (hw.pad 2)
      (avoids_cons (isBlank_of_isQuote hw.quote))
  have hread := replyText_append hw.quote htext (w.nameText name ++ (w.pad 5 ++ .scalar ')' :: (w.rest ++ t)))
  have hclose : afterBlanks ")" (w.pad 5 ++ .scalar ')' :: (w.rest ++ t)) = some (w.rest ++ t) :=
    afterBlanks_append (hw.pad 5) (by decide) _
  rw [hfunction, hargs] at hopen
  simp only [replyCall, hopen, hsource, hskip, hread, Option.bind_eq_bind, Option.bind_some]
  cases name with
  | none =>
    rw [show w.nameText none ++ (w.pad 5 ++ .scalar ')' :: (w.rest ++ t))
      = w.pad 5 ++ .scalar ')' :: (w.rest ++ t) from rfl, replyName_none hw]
    simp only [hclose]
    rfl
  | some n =>
    rw [replyName_some hw (hname n rfl).1 (hname n rfl).2]
    simp only [hclose]
    rfl

/-! ### Commands with a pattern -/

def pattern? (w : Written) : Option Text :=
  match w.form with
  | .pattern literal => some literal.pattern
  | _ => none

theorem patternCall_pattern (hw : w.Scannable) (h : w.form = .pattern literal)
    (t : Text) : patternCall (w.text ++ t) = some (literal.pattern, w.rest ++ t) := by
  have hform := hw.form
  rw [h] at hform
  have hopen := openCall_text hw t
  have hfunction := function_pattern h
  have hargs : w.arguments ++ (w.rest ++ t) = literal.text ++ (w.pad 2 ++ .scalar ',' ::
      (w.pad 3 ++ (w.asyncText ++ .scalar '(' :: (w.rest ++ t)))) := by
    simp [arguments, h]
  have hpattern := commandPattern_append hform (avoids_isFlag_append (hw.pad 2)
    (show isFlag (.scalar ',') = false by decide) (w.pad 3 ++ (w.asyncText ++ .scalar '(' :: (w.rest ++ t))))
  have hcomma : afterBlanks "," (w.pad 2 ++ .scalar ',' :: (w.pad 3 ++ (w.asyncText ++ .scalar '(' :: (w.rest ++ t))))
      = some (w.pad 3 ++ (w.asyncText ++ .scalar '(' :: (w.rest ++ t))) :=
    afterBlanks_append (hw.pad 2) (by decide) _
  have hskip := skipBlanks_append (hw.pad 3) (w.avoids_asyncText (w.rest ++ t))
  have hafter : after "(" (.scalar '(' :: (w.rest ++ t)) = some (w.rest ++ t) := after_append "(" _
  rw [hfunction, hargs] at hopen
  simp only [patternCall, hopen, hpattern, hcomma, hskip, skipAsync_append hw, hafter, Option.bind_eq_bind,
    Option.bind_some]
  rfl

theorem commandPattern_other (h : isQuote c = false) (hs : c ≠ '/') (s : Text) : commandPattern (c :: s) = none := by
  simp only [isQuote, Bool.or_eq_false_iff, beq_eq_false_iff_ne] at h
  unfold commandPattern
  split
  · next he => cases he; exact absurd rfl hs
  · next he => cases he; exact absurd rfl h.1
  · next he => cases he; exact absurd rfl h.2
  · rfl

/-! ### Commands with a function alone -/

def catchAll? (w : Written) : Option Unit :=
  match w.form with
  | .catchAll => some ()
  | _ => none

theorem catchAllCall_catchAll (hw : w.Scannable) (h : w.form = .catchAll) (t : Text) :
    catchAllCall (w.text ++ t) = some ((), w.rest ++ t) := by
  have hopen := openCall_text hw t
  have hfunction := function_catchAll h
  have hargs : w.arguments ++ (w.rest ++ t) = w.asyncText ++ .scalar '(' :: (("ctx)" : Text) ++ (w.rest ++ t)) := by
    rw [arguments, h]
    simp [Text.ofString]
  have hafter : after "(ctx)" (.scalar '(' :: (("ctx)" : Text) ++ (w.rest ++ t))) = some (w.rest ++ t) :=
    after_append "(ctx)" _
  rw [hfunction, hargs] at hopen
  simp only [catchAllCall, hopen, skipAsync_append hw, hafter, Option.bind_eq_bind, Option.bind_some]
  rfl

theorem catchAll_other (hc : c ≠ '(') (ha : c ≠ 'a') (s : Text) : after "(ctx)" (skipAsync (c :: s)) = none := by
  have hasync : skipAsync (c :: s) = c :: s := by
    have h : after "async" (c :: s) = none :=
      after_eq_none fun hp => ha ((cons_prefix_cons.mp hp).1).symm
    rw [skipAsync, h]
  rw [hasync]
  exact after_eq_none fun hp => hc ((cons_prefix_cons.mp hp).1).symm

/-! ### Object literals -/

/-- The text of an object literal up to its first closing brace. -/
def block (w : Written) (before name : Text) : Text :=
  before ++ ("name" ++ (w.pad 2 ++ (.scalar ':' :: (w.pad 3 ++ (w.quoted name ++
    w.rest.takeWhile (· != .scalar '\x7d'))))))

def block? (role : Role) (w : Written) : Option Text :=
  match w.form with
  | .object r before name => if r = role then some (w.block before name) else none
  | _ => none

def roleFunction : Role → Text
  | .command => "mai.command"
  | .action => "mai.action"

theorem roleFunction_mem (role : Role) : roleFunction role ∈ functions := by
  cases role <;> simp [roleFunction, functions]

theorem roleFunction_ne {r : Role} (h : r ≠ role) : roleFunction r ≠ roleFunction role := by
  cases r with
  | command =>
    cases role with
    | command => exact absurd rfl h
    | action => decide
  | action =>
    cases role with
    | command => decide
    | action => exact absurd rfl h

theorem function_object (h : w.form = .object role before name) : w.function = roleFunction role := by
  rw [function, h]
  cases role <;> rfl

theorem not_mem_of_allBlank (h : AllBlank s) (hc : isBlank c = false) : c ∉ s := by
  intro hm
  rw [h c hm] at hc
  cases hc

theorem brace_not_mem_block (hw : w.Scannable)
    (h : w.form = .object role before name) : .scalar '\x7d' ∉ w.block before name := by
  have hform := hw.form
  rw [h] at hform
  obtain ⟨hbefore, hname⟩ := hform
  have hquote : CodePoint.scalar '\x7d' ≠ w.quote := by
    intro hq
    have := hw.quote
    rw [← hq] at this
    cases this
  have hrest := not_mem_takeWhile_ne (.scalar '\x7d') w.rest
  have hword : CodePoint.scalar '\x7d' ∉ ("name" : Text) := by decide
  simp only [block, quoted, mem_append, mem_cons, not_mem_nil, not_or, or_false]
  exact ⟨hbefore, hword, not_mem_of_allBlank (hw.pad 2) (by decide), by decide,
    not_mem_of_allBlank (hw.pad 3) (by decide), ⟨hquote, hname, hquote⟩, hrest⟩

theorem objectCall_object (hw : w.Scannable)
    (h : w.form = .object role before name) : ∃ u v, w.text = u ++ v ∧ u ≠ [] ∧
      ∀ t, objectCall (roleFunction role) (w.text ++ t) = some (w.block before name, v ++ t) := by
  obtain ⟨v, hv⟩ := takeWhile_split (hw.closed role before name h)
  have hargs (x : Text) : w.arguments ++ (w.rest ++ x)
      = .scalar '\x7b' :: (w.block before name ++ .scalar '\x7d' :: (v ++ x)) := by
    have hx : w.rest ++ x = w.rest.takeWhile (· != .scalar '\x7d') ++ .scalar '\x7d' :: (v ++ x) := by
      conv_lhs => rw [hv]
      simp
    rw [hx]
    simp [arguments, h, block]
  refine ⟨w.function ++ (w.pad 0 ++ .scalar '(' :: (w.pad 1 ++ (.scalar '\x7b' :: (w.block before name ++
    [.scalar '\x7d'])))), v, ?_, ?_, fun t => ?_⟩
  · have htext := w.text_append []
    rw [hargs []] at htext
    simpa using htext
  · rw [function_object h]
    cases role <;> exact cons_ne_nil _ _
  · have hopen := openCall_text hw t
    rw [function_object h, hargs t] at hopen
    have hne : w.block before name ≠ [] := by
      intro hb
      have := congrArg List.length hb
      simp [block, Text.ofString] at this
    simp only [objectCall, hopen, Option.bind_eq_bind, Option.bind_some]
    exact bracketed_append hne (brace_not_mem_block hw h) _

theorem bracketed_other (h : c ≠ opening) (s : Text) : bracketed opening closing (c :: s) = none := by
  have hchar : takeChar (fun d => d == opening) (c :: s) = none := if_neg (by simpa using h)
  simp only [bracketed, hchar]
  rfl

end Written

end PluginKit.Bridge
