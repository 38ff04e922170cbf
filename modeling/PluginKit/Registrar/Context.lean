import PluginKit.Registrar.Datum
import PluginKit.Text.Number

/-!
# The context of a handler

A running handler talks to the bot through its context. It sends messages, which are collected in order,
reads what its trigger captured, the parameters that the bot chose and the configuration, and writes to the
log.
-/

namespace PluginKit.Registrar

inductive MessageKind where
  | text
  | image
  | emoji
  deriving DecidableEq, Repr

def MessageKind.name : MessageKind → Text
  | text => "text"
  | image => "image"
  | emoji => "emoji"

structure Message where
  kind : MessageKind
  content : Text
  deriving DecidableEq, Repr

def Message.toDatum (m : Message) : Datum :=
  .object [("type", .text m.kind.name), ("content", .text m.content)]

structure Context where
  streamId : Datum
  pluginName : Datum
  actionData : Datum
  matchedGroups : Datum
  config : Datum

def Context.ofDatum (d : Datum) : Attempt Context :=
  match d with
  | .null =>
    .error (.typeError
      "Cannot destructure property 'stream_id' of 'contextData' as it is null.")
  | .undefined =>
    .error (.typeError
      "Cannot destructure property 'stream_id' of 'contextData' as it is undefined.")
  | d =>
    .ok
      { streamId := d.property "stream_id"
        pluginName := d.property "plugin_name"
        actionData := (d.property "action_data").withDefault (.object [])
        matchedGroups := (d.property "matched_groups").withDefault (.array [])
        config := (d.property "config").orElse (.object []) }

structure Progress where
  messages : List Message
  log : Text
  trace : List Datum

def Progress.start : Progress := ⟨[], "", []⟩

inductive Method where
  | sendText
  | send
  | sendImage
  | sendEmoji
  | captured
  | param
  | config
  | log
  | logError
  | messages
  | describe
  | self
  | owns
  /-- Whether another object has its properties from the context. -/
  | isParent
  | wrap
  /-- The function that reads a property, if there is one. -/
  | accessor
  /-- Gives a property a function; its name for objections. -/
  | setAccessor (name : Text)
  deriving DecidableEq, Repr

def ownMethods : List (Text × Method) :=
  [("sendText", .sendText), ("send", .send), ("sendImage", .sendImage), ("sendEmoji", .sendEmoji),
    ("match", .captured), ("getMatch", .captured), ("param", .param), ("getParam", .param),
    ("config", .config), ("getConfig", .config), ("log", .log), ("logError", .logError),
    ("_getMessages", .messages)]

def objectMethods : List (Text × Method) :=
  [("toString", .describe), ("toLocaleString", .describe), ("valueOf", .self), ("hasOwnProperty", .owns),
    ("propertyIsEnumerable", .owns), ("isPrototypeOf", .isParent), ("constructor", .wrap),
    ("__lookupGetter__", .accessor), ("__lookupSetter__", .accessor),
    ("__defineGetter__", .setAccessor "__defineGetter__"),
    ("__defineSetter__", .setAccessor "__defineSetter__")]

def Method.ofName? (name : Text) : Option Method :=
  ((ownMethods ++ objectMethods).find? (·.1 == name)).map (·.2)

/-- The method gives its result later, so that what it gives at once is only a promise. -/
def Method.isLater : Method → Bool
  | sendText | send | sendImage | sendEmoji => true
  | _ => false

/-! ### Reading -/

def isSpace (c : CodePoint) : Bool :=
  let n := c.toNat
  (9 ≤ n && n ≤ 13) || n == 0x20 || n == 0xA0 || n == 0x1680 || (0x2000 ≤ n && n ≤ 0x200A) ||
    n == 0x2028 || n == 0x2029 || n == 0x202F || n == 0x205F || n == 0x3000 || n == 0xFEFF

def leadingInteger? (s : Text) : Option Int :=
  let (negative, s) := Text.takeSign (s.dropWhile isSpace)
  let digits := s.takeWhile Text.isAsciiDigit
  if digits.isEmpty then none
  else (Text.digitsValue? 10 digits).map fun n => if negative then -(n : Int) else (n : Int)

/-- The number that a whole text denotes: nothing is zero, and what is no number is not-a-number. -/
def textNumber (s : Text) : Float :=
  let nan : Float := 0.0 / 0.0
  let body := Text.trim isSpace s
  let radix (base : Nat) (digits : Text) : Float :=
    if digits.isEmpty then nan
    else ((Text.digitsValue? base digits).map fun n => Decimal.nearestFloat false n 1).getD nan
  match body with
  | [] => 0
  | .scalar '0' :: .scalar 'x' :: digits => radix 16 digits
  | .scalar '0' :: .scalar 'X' :: digits => radix 16 digits
  | .scalar '0' :: .scalar 'o' :: digits => radix 8 digits
  | .scalar '0' :: .scalar 'O' :: digits => radix 8 digits
  | .scalar '0' :: .scalar 'b' :: digits => radix 2 digits
  | .scalar '0' :: .scalar 'B' :: digits => radix 2 digits
  | body =>
    let (negative, size) := Text.takeSign body
    if size == "Infinity" then (if negative then -(1.0 / 0.0) else 1.0 / 0.0)
    else if size.all fun (c : CodePoint) => Text.isAsciiDigit c || (".eE+-" : Text).contains c then
      (Text.readFloat? body).getD nan
    else nan

def comparedNumber (d : Datum) : Attempt Float :=
  match d with
  | .undefined => .ok (0.0 / 0.0)
  | .null => .ok 0
  | .bool b => .ok (if b then 1 else 0)
  | .number x => .ok x
  | .text s => .ok (textNumber s)
  | d => d.toText.map textNumber

def lengthOf (d : Datum) : Attempt Float :=
  match d with
  | .null => .error (.typeError "Cannot read properties of null (reading 'length')")
  | .undefined => .error (.typeError "Cannot read properties of undefined (reading 'length')")
  | d => comparedNumber (d.property "length")

/-- What the group of a number captured, counted from one; null if there is no such group or if it captured
nothing. -/
def Context.group (c : Context) (number : Datum) : Attempt Datum := do
  match leadingInteger? (← number.toText) with
  | none => return .null
  | some n =>
    let place := Decimal.nearestFloat (decide (n < 0)) n.natAbs 1 - 1
    if 0 ≤ place then
      let length ← lengthOf c.matchedGroups
      if place < length then
        return (c.matchedGroups.property (numberText place)).orElse .null
      else return .null
    else return .null

def Context.parameter (c : Context) (key default : Datum) : Attempt Datum := do
  let key ← key.toText
  match c.actionData with
  | .null => .error (.typeError "Cannot convert undefined or null to object")
  | d => return (d.own? key).getD (default.withDefault .null)

def lookInto (d : Datum) : List Text → Option Datum
  | [] => some d
  | key :: rest => if d.isCollection then (d.own? key).bind (lookInto · rest) else none

/-- A configuration value by its dotted path, or the default. -/
def Context.setting (c : Context) (path default : Datum) : Attempt Datum := do
  let keys := Text.splitOn '.' (← path.toText)
  return (((lookInto c.config keys).getD .undefined).withDefault (default.withDefault .null))

/-! ### Sending and logging -/

def Progress.add (p : Progress) (kind : MessageKind) (content : Text) : Progress :=
  { p with messages := p.messages ++ [⟨kind, content⟩] }

def Progress.sendText (p : Progress) (d : Datum) : Progress × Attempt Datum :=
  if d.given then
    match d.toText with
    | .ok s => (p.add .text s, .ok .undefined)
    | .error e => (p, .error e)
  else (p, .ok .undefined)

/-- Sends a datum as a message of another kind, unless it does not count as present. -/
def Progress.sendOther (p : Progress) (kind : MessageKind) (d : Datum) : Progress × Attempt Datum :=
  if d.truthy then
    match d.toText with
    | .ok s => (p.add kind s, .ok .undefined)
    | .error e => (p, .error e)
  else (p, .ok .undefined)

def Progress.writeLog (p : Progress) (c : Context) (mark : Text) (args : List Datum) : Progress × Attempt Datum :=
  let line : Attempt Text := do
    let name ← c.pluginName.toText
    let words ← Datum.joinedWith " " args
    return "[JS:" ++ name ++ "] " ++ mark ++ words ++ "\n"
  match line with
  | .ok s => ({ p with log := p.log ++ s }, .ok .undefined)
  | .error e => (p, .error e)

/-! ### The context as an object -/

def Context.toDatum (c : Context) : Datum :=
  .object (("stream_id", c.streamId) :: ("plugin_name", c.pluginName) ::
    ownMethods.map fun m => (m.1, .method))

/-- The object for a datum: itself if it is one already, an empty one for nothing. -/
def wrapped : Datum → Datum
  | .undefined => .object []
  | .null => .object []
  | .text s =>
    .derived ((units s).mapIdx fun i c => (Text.padNat 0 i, .text [c])) (.text s)
  | .bool b => .derived [] (.bool b)
  | .number x => .derived [] (.number x)
  | d => d

/-- The function that reads a property. Only the one that says from what an object has the rest has one. -/
def accessorOf (key : Text) : Datum :=
  if key == Datum.parentKey then .method else .undefined

def Progress.run (p : Progress) (c : Context) (m : Method) (args : List Datum) : Progress × Attempt Datum :=
  let first := (args[0]?).getD .undefined
  let second := (args[1]?).getD .undefined
  match m with
  | .sendText => p.sendText first
  | .send => p.sendText first
  | .sendImage => p.sendOther .image first
  | .sendEmoji => p.sendOther .emoji first
  | .captured => (p, c.group first)
  | .param => (p, c.parameter first second)
  | .config => (p, c.setting first second)
  | .log => p.writeLog c "" args
  | .logError => p.writeLog c "ERROR: " args
  | .messages => (p, .ok (.array (p.messages.map Message.toDatum)))
  | .describe => (p, .ok (.text objectText))
  | .self => (p, .ok c.toDatum)
  | .owns => (p, first.toText.map fun key => .bool (c.toDatum.own? key).isSome)
  | .isParent => (p, .ok (.bool false))
  | .wrap => (p, .ok (wrapped first))
  | .accessor => (p, first.toText.map accessorOf)
  | .setAccessor name =>
    if second.isFunction then (p, .ok .undefined)
    else (p, .error (.typeError ("Object.prototype." ++ name ++ ": Expecting function")))

def Progress.call (p : Progress) (c : Context) (name : Text) (args : List Datum) : Progress × Attempt Datum :=
  match Method.ofName? name with
  | some m => p.run c m args
  | none => (p, .error (.typeError "ctx[method] is not a function"))

def Context.property (c : Context) (key : Text) : Datum :=
  if key == Datum.parentKey then .object []
  else if (Method.ofName? key).isSome then .method
  else c.toDatum.property key

end PluginKit.Registrar
