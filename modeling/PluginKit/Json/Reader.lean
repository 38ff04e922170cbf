import PluginKit.Text.Number
import PluginKit.Value.Fault

/-!
# Reading JSON

A JSON text is read into a value. Where it is not JSON, the error says what was expected and where: the line,
the column and the offset of the place.
-/

namespace PluginKit.Json

inductive ReadProblem where
  | value
  | propertyName
  | colon
  | comma
  | unterminated
  | controlCharacter
  | escape
  | unicodeEscape
  | extraData
  | byteOrderMark
  deriving DecidableEq, Repr

structure ReadError where
  problem : ReadProblem
  offset : Nat
  deriving DecidableEq, Repr

/-- What ends the reading of a JSON text: it is malformed, or something in it is beyond the reader. -/
inductive ReadFailure where
  | malformed (e : ReadError)
  | fault (f : Fault)

def ReadProblem.message : ReadProblem → Text
  | value => "Expecting value"
  | propertyName => "Expecting property name enclosed in double quotes"
  | colon => "Expecting ':' delimiter"
  | comma => "Expecting ',' delimiter"
  | unterminated => "Unterminated string starting at"
  | controlCharacter => "Invalid control character at"
  | escape => "Invalid \\escape"
  | unicodeEscape => "Invalid \\uXXXX escape"
  | extraData => "Extra data"
  | byteOrderMark => "Unexpected UTF-8 BOM (decode using utf-8-sig)"

def lineAndColumn (text : Text) (offset : Nat) : Nat × Nat :=
  let before := text.take offset
  let isLineEnd (c : CodePoint) : Bool := c == '\n'
  (before.countP isLineEnd + 1, (before.reverse.takeWhile (!isLineEnd ·)).length + 1)

def ReadError.message (e : ReadError) (text : Text) : Text :=
  let (line, column) := lineAndColumn text e.offset
  e.problem.message ++ s!": line {line} column {column} (char {e.offset})"

def ReadFailure.message (text : Text) : ReadFailure → Text
  | malformed e => e.message text
  | fault f => f.message

abbrev Reading (α : Type) := Except ReadFailure α

structure Place where
  offset : Nat
  rest : Text

def isJsonBlank (c : CodePoint) : Bool := c == ' ' || c == '\t' || c == '\n' || c == '\r'

namespace Place

def advance (p : Place) (n : Nat) : Place := ⟨p.offset + n, p.rest.drop n⟩

def skipBlanks (p : Place) : Place :=
  p.advance (p.rest.takeWhile isJsonBlank).length

def fail {α : Type} (p : Place) (problem : ReadProblem) : Reading α :=
  .error (.malformed ⟨problem, p.offset⟩)

end Place

def fourHex? (cs : Text) : Option Nat :=
  if (cs.take 4).length = 4 then Text.hexNumber? (cs.take 4) else none

def shortEscape? : CodePoint → Option CodePoint
  | .scalar '"' => some '"'
  | .scalar '\\' => some '\\'
  | .scalar '/' => some '/'
  | .scalar 'b' => some '\x08'
  | .scalar 'f' => some '\x0c'
  | .scalar 'n' => some '\n'
  | .scalar 'r' => some '\r'
  | .scalar 't' => some '\t'
  | _ => none

/-- The low half of a surrogate pair that follows a high half, and whether more text follows it. -/
inductive LowHalf where
  | none
  | half (code : Nat)
  | bad

/-- Looks for a second escape after a high surrogate half; a text must go on after it. -/
def lowHalf (cs : Text) : LowHalf :=
  match cs with
  | .scalar '\\' :: .scalar 'u' :: rest =>
    if (rest.drop 4).isEmpty then .none
    else
      match fourHex? rest with
      | some n => if 0xDC00 ≤ n && n ≤ 0xDFFF then .half n else .none
      | Option.none => .bad
  | _ => .none

/-- The rest of a quoted text whose opening quote stands at offset `start`. -/
def readText (start : Nat) : Nat → Place → Reading (Text × Place)
  | 0, _ => .error (.malformed ⟨.unterminated, start⟩)
  | fuel + 1, p =>
    match p.rest with
    | [] => .error (.malformed ⟨.unterminated, start⟩)
    | .scalar '"' :: _ => .ok ([], p.advance 1)
    | .scalar '\\' :: cs =>
      match cs with
      | [] => .error (.malformed ⟨.unterminated, start⟩)
      | .scalar 'u' :: hex =>
        if (hex.drop 4).isEmpty then (p.advance 1).fail .unicodeEscape
        else
          match fourHex? hex with
          | none => (p.advance 1).fail .unicodeEscape
          | some n =>
            let low := if 0xD800 ≤ n && n ≤ 0xDBFF then lowHalf (hex.drop 4) else .none
            match low with
            | .bad => (p.advance 7).fail .unicodeEscape
            | .half m => do
              let (s, q) ← readText start fuel (p.advance 12)
              return (CodePoint.ofNat (0x10000 + (n - 0xD800) * 0x400 + (m - 0xDC00)) :: s, q)
            | .none => do
              let (s, q) ← readText start fuel (p.advance 6)
              return (CodePoint.ofNat n :: s, q)
      | c :: _ =>
        match shortEscape? c with
        | none => p.fail .escape
        | some d => do
          let (s, q) ← readText start fuel (p.advance 2)
          return (d :: s, q)
    | c :: _ =>
      if c.toNat < 32 then p.fail .controlCharacter
      else do
        let (s, q) ← readText start fuel (p.advance 1)
        return (c :: s, q)

def leadingDigits (cs : Text) : Text :=
  cs.takeWhile Text.isAsciiDigit

/-- The digits of the whole part: one zero, or digits that do not begin with a zero. -/
def wholeDigits? (cs : Text) : Option Text :=
  match cs with
  | .scalar '0' :: _ => some ['0']
  | c :: _ => if Text.isAsciiDigit c then some (leadingDigits cs) else none
  | [] => none

def fractionDigits (cs : Text) : Text :=
  match cs with
  | .scalar '.' :: rest => leadingDigits rest
  | _ => []

/-- The exponent: its mark, an optional sign and at least one digit. The value and the length. -/
def exponentPart? (cs : Text) : Option (Int × Nat) :=
  match cs with
  | e :: rest =>
    if e = 'e' || e = 'E' then
      let (negative, body) := Text.takeSign rest
      let digits := leadingDigits body
      if digits.isEmpty then none
      else
        (Text.digitsValue? 10 digits).map fun n =>
          (if negative then -(n : Int) else (n : Int), 1 + (rest.length - body.length) + digits.length)
    else none
  | [] => none

structure Limits where
  digits : Nat
  depth : Nat

def usualLimits : Limits := ⟨Text.maxDigits, 985⟩

/-- A number at a place, whose sign is known and whose digits begin `body`. -/
def readMagnitude (limits : Limits) (p : Place) (negative : Bool) (body : Text) : Reading (Value × Place) :=
  match wholeDigits? body with
  | none => p.fail .value
  | some whole =>
    let signLength := if negative then 1 else 0
    let afterWhole := body.drop whole.length
    let fraction := fractionDigits afterWhole
    let fractionLength := if fraction.isEmpty then 0 else fraction.length + 1
    let exponent := exponentPart? (afterWhole.drop fractionLength)
    let length := signLength + whole.length + fractionLength + (exponent.map (·.2)).getD 0
    let n := (Text.digitsValue? 10 (whole ++ fraction)).getD 0
    if fraction.isEmpty && exponent.isNone then
      if limits.digits < whole.length then .error (.fault (.badValue (.tooManyDigits whole.length)))
      else .ok (.int (if negative then -(n : Int) else (n : Int)), p.advance length)
    else
      .ok (.float (Decimal.ofDecimal negative n ((exponent.map (·.1)).getD 0 - fraction.length)),
        p.advance length)

def readNumber (limits : Limits) (p : Place) : Reading (Value × Place) :=
  match p.rest with
  | .scalar '-' :: body => readMagnitude limits p true body
  | body => readMagnitude limits p false body

def words : List (Text × Value) :=
  [("null", .null), ("true", .bool true), ("false", .bool false), ("NaN", .float (0.0 / 0.0)),
    ("Infinity", .float (1.0 / 0.0)), ("-Infinity", .float (-(1.0 / 0.0)))]

def word? (cs : Text) : Option (Text × Value) :=
  words.find? fun w => w.1.isPrefixOf cs

def tooDeep {α : Type} (collection : String) : Reading α :=
  .error (.fault (.tooDeep s!" while decoding a JSON {collection} from a unicode string"))

mutual

/-- A value at a place where no blank stands, inside `level` collections. -/
def readValue (limits : Limits) (level : Nat) : Nat → Place → Reading (Value × Place)
  | 0, p => p.fail .value
  | fuel + 1, p =>
    match p.rest with
    | .scalar '"' :: _ => do
      let (s, q) ← readText p.offset p.rest.length (p.advance 1)
      return (.str s, q)
    | .scalar '[' :: _ =>
      if limits.depth ≤ level then tooDeep "array" else
      let q := (p.advance 1).skipBlanks
      match q.rest with
      | .scalar ']' :: _ => .ok (.list [], q.advance 1)
      | _ => do
        let (items, r) ← readItems limits (level + 1) fuel q
        return (.list items, r)
    | .scalar '\x7b' :: _ =>
      if limits.depth ≤ level then tooDeep "object" else
      let q := (p.advance 1).skipBlanks
      match q.rest with
      | .scalar '\x7d' :: _ => .ok (.dict [], q.advance 1)
      | _ => do
        let (entries, r) ← readEntries limits (level + 1) fuel q
        return (.dict (Value.insertAll [] entries), r)
    | cs =>
      match word? cs with
      | some w => .ok (w.2, p.advance w.1.length)
      | none => readNumber limits p

def readItems (limits : Limits) (level : Nat) : Nat → Place → Reading (List Value × Place)
  | 0, p => p.fail .value
  | fuel + 1, p => do
    let (x, q) ← readValue limits level fuel p
    let q := q.skipBlanks
    match q.rest with
    | .scalar ']' :: _ => return ([x], q.advance 1)
    | .scalar ',' :: _ => do
      let (rest, r) ← readItems limits level fuel (q.advance 1).skipBlanks
      return (x :: rest, r)
    | _ => q.fail .comma

def readEntries (limits : Limits) (level : Nat) : Nat → Place → Reading (List (Value × Value) × Place)
  | 0, p => p.fail .value
  | fuel + 1, p =>
    match p.rest with
    | .scalar '"' :: _ => do
      let (key, q) ← readText p.offset p.rest.length (p.advance 1)
      let q := q.skipBlanks
      match q.rest with
      | .scalar ':' :: _ => do
        let (v, r) ← readValue limits level fuel (q.advance 1).skipBlanks
        let r := r.skipBlanks
        match r.rest with
        | .scalar '\x7d' :: _ => return ([(.str key, v)], r.advance 1)
        | .scalar ',' :: _ => do
          let (rest, t) ← readEntries limits level fuel (r.advance 1).skipBlanks
          return ((.str key, v) :: rest, t)
        | _ => r.fail .comma
      | _ => q.fail .colon
    | _ => p.fail .propertyName

end

def readWithin (limits : Limits) (text : Text) : Reading Value := do
  if text.head? == some '\ufeff' then throw (.malformed ⟨.byteOrderMark, 0⟩)
  let start : Place := ⟨0, text⟩
  let (v, p) ← readValue limits 0 (2 * text.length + 2) start.skipBlanks
  let q := p.skipBlanks
  if q.rest.isEmpty then return v else q.fail .extraData

def read (text : Text) : Reading Value := readWithin usualLimits text

end PluginKit.Json
