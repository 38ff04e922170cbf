import PluginKit.Text.Basic
import PluginKit.Text.Word

/-!
# Tags

A tag says what a node is. A scalar without a tag that is written plain gets one from its form: numbers,
truth values, nulls, dates and the merge and default keys are recognised, and anything else is a text.
-/

namespace PluginKit.Yaml

inductive Tag where
  | null
  | bool
  | int
  | float
  | str
  | binary
  | timestamp
  | omap
  | pairs
  | set
  | seq
  | map
  | merge
  | value
  | other (uri : Text)
  deriving DecidableEq, Repr

def tagNames : List (Text × Tag) :=
  [("null", .null), ("bool", .bool), ("int", .int), ("float", .float), ("str", .str),
    ("binary", .binary), ("timestamp", .timestamp), ("omap", .omap), ("pairs", .pairs), ("set", .set),
    ("seq", .seq), ("map", .map), ("merge", .merge), ("value", .value)]

def tagBase : Text := "tag:yaml.org,2002:"

def Tag.ofUri (uri : Text) : Tag :=
  match tagNames.find? fun t => tagBase ++ t.1 == uri with
  | some t => t.2
  | none => .other uri

/-! ### Forms of plain scalars -/

def unsigned : Text → Text
  | .scalar '-' :: cs => cs
  | .scalar '+' :: cs => cs
  | cs => cs

def isDigitOrMark (c : CodePoint) : Bool :=
  Text.isAsciiDigit c || c == '_'

/-- Parts of base sixty: each a colon with one or two digits, the first of two below six. -/
def isSixties (cs : Text) : Bool :=
  match cs with
  | [] => true
  | .scalar ':' :: d :: e :: rest =>
    if Text.isAsciiDigit d then
      if Text.isAsciiDigit e then d ≤ '5' && isSixties rest else isSixties (e :: rest)
    else false
  | [.scalar ':', d] => Text.isAsciiDigit d
  | _ => false

def isIntForm (text : Text) : Bool :=
  match unsigned text with
  | .scalar '0' :: .scalar 'b' :: cs => !cs.isEmpty && cs.all fun c => c == '0' || c == '1' || c == '_'
  | .scalar '0' :: .scalar 'x' :: cs => !cs.isEmpty && cs.all fun c => (Text.hexValue? c).isSome || c == '_'
  | .scalar '0' :: cs => cs.all fun c => ('0' ≤ c && c ≤ '7') || c == '_'
  | c :: cs =>
    Text.isAsciiDigit c && isSixties (cs.dropWhile isDigitOrMark)
  | [] => false

def isExponentForm (cs : Text) : Bool :=
  match cs with
  | [] => true
  | e :: sign :: digits =>
    (e == 'e' || e == 'E') && (sign == '+' || sign == '-') && !digits.isEmpty &&
      digits.all Text.isAsciiDigit
  | _ => false

def isFloatForm (text : Text) : Bool :=
  let body := unsigned text
  if body == ".inf" || body == ".Inf" || body == ".INF" then true
  else if body == text && (body == ".nan" || body == ".NaN" || body == ".NAN") then true
  else
    match body with
    | .scalar '.' :: c :: cs =>
      body == text && Text.isAsciiDigit c && isExponentForm (cs.dropWhile isDigitOrMark)
    | c :: cs =>
      Text.isAsciiDigit c &&
        match cs.dropWhile isDigitOrMark with
        | .scalar '.' :: fraction => isExponentForm (fraction.dropWhile isDigitOrMark)
        | .scalar ':' :: rest =>
          let isPoint (c : CodePoint) : Bool := c == '.'
          let fraction := rest.dropWhile (!isPoint ·)
          isSixties (":" ++ rest.takeWhile (!isPoint ·)) && !fraction.isEmpty && (fraction.drop 1).all isDigitOrMark
        | _ => false
    | [] => false

def boolWords : List Text :=
  ["yes", "Yes", "YES", "no", "No", "NO", "true", "True", "TRUE", "false", "False", "FALSE", "on", "On",
    "ON", "off", "Off", "OFF"]

def nullWords : List Text := ["~", "null", "Null", "NULL"]

def oneOrTwoDigits? (cs : Text) : Option (Text × Text) :=
  match cs with
  | d :: e :: rest =>
    if Text.isAsciiDigit d then
      if Text.isAsciiDigit e then some ([d, e], rest) else some ([d], e :: rest)
    else none
  | [d] => if Text.isAsciiDigit d then some ([d], []) else none
  | [] => none

def exactDigits? (n : Nat) (cs : Text) : Option (Text × Text) :=
  let digits := cs.take n
  if digits.length = n && digits.all Text.isAsciiDigit then some (digits, cs.drop n) else none

def expect? (c : CodePoint) (cs : Text) : Option Text :=
  match cs with
  | d :: rest => if d = c then some rest else none
  | [] => none

inductive Zone where
  | none
  | utc
  | offset (negative : Bool) (hours minutes : Text)
  deriving DecidableEq, Repr

/-- The digits of a written date, with its time of day if it has one. -/
structure Stamp where
  year : Text
  month : Text
  day : Text
  time : Option (Text × Text × Text × Text × Zone)
  deriving DecidableEq, Repr

def isStampBlank (c : CodePoint) : Bool :=
  c == ' ' || c == '\t'

def zone? (cs : Text) : Option Zone :=
  match cs.dropWhile isStampBlank with
  | [] => if cs.isEmpty then some .none else none
  | [.scalar 'Z'] => some .utc
  | sign :: rest =>
    if sign == '+' || sign == '-' then do
      let (hours, rest) ← oneOrTwoDigits? rest
      match rest with
      | [] => some (.offset (sign == '-') hours [])
      | _ => do
        let (minutes, rest) ← exactDigits? 2 (← expect? ':' rest)
        if rest.isEmpty then some (.offset (sign == '-') hours minutes) else none
    else none

def clock? (cs : Text) : Option (Text × Text × Text × Text × Zone) := do
  let body ←
    match cs with
    | .scalar 'T' :: rest => some rest
    | .scalar 't' :: rest => some rest
    | c :: rest => if isStampBlank c then some (rest.dropWhile isStampBlank) else none
    | [] => none
  let (hour, rest) ← oneOrTwoDigits? body
  let (minute, rest) ← exactDigits? 2 (← expect? ':' rest)
  let (second, rest) ← exactDigits? 2 (← expect? ':' rest)
  match rest with
  | .scalar '.' :: more =>
    let fraction := more.takeWhile Text.isAsciiDigit
    let zone ← zone? (more.drop fraction.length)
    return (hour, minute, second, fraction, zone)
  | _ =>
    let zone ← zone? rest
    return (hour, minute, second, [], zone)

def stamp? (text : Text) : Option Stamp := do
  let (year, rest) ← exactDigits? 4 text
  let (month, rest) ← oneOrTwoDigits? (← expect? '-' rest)
  let (day, rest) ← oneOrTwoDigits? (← expect? '-' rest)
  if rest.isEmpty then return ⟨year, month, day, none⟩
  else return ⟨year, month, day, some (← clock? rest)⟩

/-- The form of a date: without a time of day, month and day have two digits. -/
def isStampForm (text : Text) : Bool :=
  match stamp? text with
  | some s => s.time.isSome || (s.month.length == 2 && s.day.length == 2)
  | none => false

/-- The text of a scalar, and the text without a line end after it; either may have the form that is
looked for. -/
def withoutLineEnd (text : Text) : List Text :=
  if text.getLast? == some '\n' then [text, text.dropLast] else [text]

def Tag.ofPlain (text : Text) : Tag :=
  let forms := withoutLineEnd text
  let isWord (words : List Text) : Bool := forms.any words.contains
  if isWord boolWords then .bool
  else if forms.any isFloatForm then .float
  else if forms.any isIntForm then .int
  else if isWord ["<<"] then .merge
  else if text.isEmpty || isWord nullWords then .null
  else if forms.any isStampForm then .timestamp
  else if isWord ["="] then .value
  else if isWord ["!", "&", "*"] then .other (tagBase ++ "yaml")
  else .str

end PluginKit.Yaml
