import PluginKit.Bridge.Fields
import PluginKit.Script.Match

/-!
# Registrations in a plugin file

A plugin file registers its components by calls of four forms:

* `mai.reply('/ping', 'Pong')` or, with a name, `mai.reply('/ping', 'Pong', 'ping')`,
* `mai.command(/^roll$/, (ctx) => ...)` with a regular expression or a text,
* `mai.command((ctx) => ...)`, which answers everything,
* `mai.command(...)` and `mai.action(...)` with an object literal.

The calls are found by their beginnings in the text of the file, each form in a pass of its own, so the order
of the commands is that of the passes. Unnamed ones are numbered, and of several commands of one name the last
one counts, at the place of the first.
-/

namespace PluginKit.Bridge

open Text

/-! ### The calls -/

structure ReplyCall where
  source : Text
  text : Text
  name : Option Text
  deriving DecidableEq, Repr

def openCall (function : Text) (s : Text) : Option Text := do
  let s ← after function s
  return skipBlanks (← afterBlanks "(" s)

/-- The first argument of a reply: up to the comma, at least two characters, the first of which is a quote or
a slash. -/
def replySource : Scanner Text := fun s => do
  let (c, _) ← takeChar (fun (c : CodePoint) => isQuote c || c == '/') s
  let run := s.takeWhile fun (c : CodePoint) => c != ','
  if run = [c] then none
  else
    let rest ← after "," (s.drop run.length)
    return (trim isBlank run, rest)

def replyText : Scanner Text := fun s => do
  let (_, s) ← takeChar isQuote s
  let text := s.takeWhile (!isQuote ·)
  let (_, s) ← takeChar isQuote (s.drop text.length)
  return (text, s)

def replyName : Scanner Text := fun s => do
  quotedText (skipBlanks (← afterBlanks "," s))

def replyCall : Scanner ReplyCall := fun s => do
  let s ← openCall "mai.reply" s
  let (source, s) ← replySource s
  let (text, s) ← replyText (skipBlanks s)
  match replyName s with
  | some (name, s) => return (⟨source, text, some name⟩, ← afterBlanks ")" s)
  | none => return (⟨source, text, none⟩, ← afterBlanks ")" s)

/-- A call with an object literal: the text of the literal, up to the first closing brace. -/
def objectCall (function : Text) : Scanner Text := fun s => do
  bracketed '\x7b' '\x7d' (← openCall function s)

/-- The body of a regular expression, up to the first slash that has no backslash before it, from the point
where `escaped` says that the character before was such a backslash. A line end cannot be escaped. -/
def regexBody : Bool → Scanner Text
  | _, [] => none
  | true, c :: s =>
    if c = '\n' then none else (regexBody false s).map fun r => (c :: r.1, r.2)
  | false, c :: s =>
    if c = '/' then some ([], s)
    else (regexBody (c == '\\') s).map fun r => (c :: r.1, r.2)

/-- A regular expression between slashes; its options are passed over. -/
def regexLiteral : Scanner Text := fun s => do
  let s ← after "/" s
  let (body, s) ← regexBody false s
  if body.isEmpty then none else return (body, s.dropWhile isFlag)

def stringLiteral (quote : CodePoint) : Scanner Text :=
  bracketed quote quote

/-- What a command answers: a regular expression, or a text, which is taken without any quotes at its ends. -/
def commandPattern : Scanner Text := fun s =>
  match s with
  | .scalar '/' :: _ => regexLiteral s
  | .scalar '"' :: _ => (stringLiteral '"' s).map fun r => (trim isQuote r.1, r.2)
  | .scalar '\'' :: _ => (stringLiteral '\'' s).map fun r => (trim isQuote r.1, r.2)
  | _ => none

/-- The rest behind the word that makes a function asynchronous and at least one blank, or the text itself. -/
def skipAsync (s : Text) : Text :=
  match after "async" s with
  | some (c :: rest) => if isBlank c then skipBlanks rest else s
  | _ => s

def patternCall : Scanner Text := fun s => do
  let (pattern, s) ← commandPattern (← openCall "mai.command" s)
  let s ← afterBlanks "," s
  return (pattern, ← after "(" (skipAsync (skipBlanks s)))

def catchAllCall : Scanner Unit := fun s => do
  let s ← openCall "mai.command" s
  return ((), ← after "(ctx)" (skipAsync s))

/-! ### The pattern of a reply -/

def splitLastSlash : Text → Option (Text × Text)
  | [] => none
  | c :: s =>
    match splitLastSlash s with
    | some (front, back) => some (c :: front, back)
    | none => if c = '/' then some ([], s) else none

/-- The body of a regular expression that a whole text is: what stands before its last slash, not empty and on
one line, if only options follow. -/
def wholeRegex? (s : Text) : Option Text :=
  match splitLastSlash s with
  | some (body, flags) =>
    if body.isEmpty || body.contains '\n' || !flags.all isFlag then none else some body
  | none => none

/-- The pattern for what a reply answers: the body of a regular expression, or a text, which stands for
itself. -/
def replyPattern (source : Text) : Text :=
  match source with
  | .scalar '/' :: s => (wholeRegex? s).getD s.dropLast
  | _ => Script.escapeRegex (trim isQuote source)

/-! ### The components -/

inductive Details where
  | reply (pattern text : Text)
  | pattern (pattern : Text)
  | catchAll
  | object (fields : Fields)
  deriving DecidableEq, Repr

structure Registration where
  name : Text
  details : Details
  deriving DecidableEq, Repr

structure Registrations where
  commands : List Registration
  actions : List Registration
  deriving DecidableEq, Repr

def Registrations.empty : Registrations := ⟨[], []⟩

def everything : Text := "^.*$"

/-- The components of replies; the unnamed ones are numbered from `next` on. -/
def replyRegistrations (next : Nat) : List ReplyCall → List Registration
  | [] => []
  | call :: rest =>
    let details := Details.reply (replyPattern call.source) call.text
    match call.name with
    | some name => ⟨name, details⟩ :: replyRegistrations next rest
    | none => ⟨s!"auto_reply_{next}", details⟩ :: replyRegistrations (next + 1) rest

/-- The components of calls with an object literal; those without a name are left out. -/
def objectRegistrations (blocks : List Text) : List Registration :=
  blocks.filterMap fun block =>
    let fields := Fields.ofText block
    fields.name.map fun name => ⟨name, .object fields⟩

def numberedCommands (next : Nat) : List Details → List Registration
  | [] => []
  | details :: rest => ⟨s!"auto_cmd_{next}", details⟩ :: numberedCommands (next + 1) rest

/-- The components with one more: in place of the one of the same name, else at the end. -/
def register (r : Registration) : List Registration → List Registration
  | [] => [r]
  | old :: rest => if old.name = r.name then r :: rest else old :: register r rest

def mergeByName (items : List Registration) : List Registration :=
  items.foldl (fun acc r => register r acc) []

def scannedCommands (s : Text) : List Registration :=
  replyRegistrations 0 (findAll replyCall s) ++
    objectRegistrations (findAll (objectCall "mai.command") s) ++
    numberedCommands 0
      ((findAll patternCall s).map Details.pattern ++
        (findAll catchAllCall s).map fun _ => Details.catchAll)

def Registrations.ofText (s : Text) : Registrations where
  commands := mergeByName (scannedCommands s)
  actions := objectRegistrations (findAll (objectCall "mai.action") s)

/-! ### Components as values -/

def shorten (length : Nat) (s : Text) : Text :=
  s.take length

def Registration.toValue (r : Registration) : Value :=
  match r.details with
  | .reply pattern text =>
    .record [("name", .str r.name), ("description", .str ("固定回复：" ++ shorten 30 text)),
      ("pattern", .str pattern), ("_reply_text", .str text), ("_is_simple_reply", .bool true)]
  | .pattern pattern =>
    .record [("name", .str r.name), ("description", .str ("命令：" ++ shorten 40 pattern)),
      ("pattern", .str pattern)]
  | .catchAll =>
    .record [("name", .str r.name), ("description", .str "catch-all 命令"), ("pattern", .str everything)]
  | .object fields => fields.toValue

def Registrations.toValue (r : Registrations) : Value :=
  .record [("commands", .list (r.commands.map Registration.toValue)),
    ("actions", .list (r.actions.map Registration.toValue))]

end PluginKit.Bridge
