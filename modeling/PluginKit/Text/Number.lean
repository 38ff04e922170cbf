import PluginKit.Decimal.Binary64
import PluginKit.Text.Basic
import PluginKit.Text.Blank
import PluginKit.Text.Case
import PluginKit.Text.Word

/-!
# Numbers in texts

Reading whole numbers and decimals as people type them: blanks around the number, digits of any script, a
sign, and single underscores between digits are all accepted.
-/

namespace PluginKit.Text

def isNumberSpace (c : CodePoint) : Bool :=
  c == ' ' || (9 ≤ c.toNat && c.toNat ≤ 13)

/-- The text with digits of any script written as ASCII digits, and blanks beyond ASCII as spaces. -/
def plainDigits (s : Text) : Text :=
  s.map fun c =>
    if c.toNat < 127 then c
    else
      match decimalValue? c with
      | some n => CodePoint.ofNat ('0'.toNat + n)
      | none => if isBlank c then ' ' else c

def digitValue? (base : Nat) (c : CodePoint) : Option Nat :=
  (hexValue? c).filter (· < base)

def digitsValue? (base : Nat) (s : Text) : Option Nat :=
  s.foldlM (fun n c => (digitValue? base c).map (base * n + ·)) 0

/-- Digits in a base with single underscores between them: the number and how many digits there are. -/
def groupedDigits? (base : Nat) (s : Text) : Option (Nat × Nat) :=
  let parts := splitOn '_' s
  if parts.any List.isEmpty then none
  else (digitsValue? base parts.flatten).map (·, parts.flatten.length)

def takeSign : Text → Bool × Text
  | .scalar '-' :: cs => (true, cs)
  | .scalar '+' :: cs => (false, cs)
  | cs => (false, cs)

def baseLetter? (base : Nat) : Option CodePoint :=
  if base = 2 then some 'b' else if base = 8 then some 'o' else if base = 16 then some 'x' else none

def dropBase (base : Nat) (s : Text) : Text :=
  match s, baseLetter? base with
  | .scalar '0' :: c :: cs, some letter =>
    if lowerChar c == [letter] then
      match cs with
      | .scalar '_' :: rest => rest
      | _ => cs
    else s
  | _, _ => s

def maxDigits : Nat := 4300

inductive IntReading where
  | number (n : Int)
  | invalid
  | tooLong (digits : Nat)
  deriving DecidableEq, Repr

/-- Reads a whole number in a base. The length of a decimal number is judged before what follows it. -/
def readInt (base : Nat) (s : Text) : IntReading :=
  let (negative, signless) := takeSign (trim isNumberSpace (plainDigits s))
  let body := dropBase base signless
  let digits := body.takeWhile fun c => (digitValue? base c).isSome || c == '_'
  match groupedDigits? base digits with
  | none => .invalid
  | some (n, length) =>
    if (baseLetter? base).isNone && length > maxDigits then .tooLong length
    else if digits.length < body.length then .invalid
    else .number (if negative then -n else n)

def optionalDigits? (s : Text) : Option Text :=
  if s.isEmpty then some []
  else
    let parts := splitOn '_' s
    if parts.any List.isEmpty || !parts.flatten.all isAsciiDigit then none else some parts.flatten

def readExponent? (s : Text) : Option Int :=
  let (negative, digits) := takeSign s
  (groupedDigits? 10 digits).map fun e => if negative then -(e.1 : Int) else (e.1 : Int)

def readMantissa? (s : Text) : Option (Nat × Int) := do
  let isMark (c : CodePoint) : Bool := c == 'e' || c == 'E'
  let mantissa := s.takeWhile (!isMark ·)
  let rest := s.dropWhile (!isMark ·)
  let exponent ← if rest.isEmpty then some 0 else readExponent? (rest.drop 1)
  let isPoint (c : CodePoint) : Bool := c == '.'
  let whole ← optionalDigits? (mantissa.takeWhile (!isPoint ·))
  let fraction ← optionalDigits? ((mantissa.dropWhile (!isPoint ·)).drop 1)
  if whole.isEmpty && fraction.isEmpty then none
  else
    let n ← digitsValue? 10 (whole ++ fraction)
    return (n, exponent - fraction.length)

def readFloat? (s : Text) : Option Float :=
  let (negative, body) := takeSign (trim isNumberSpace (plainDigits s))
  let word := lower body
  if word == "inf" || word == "infinity" then
    some (if negative then -(1.0 / 0.0) else 1.0 / 0.0)
  else if word == "nan" then some (0.0 / 0.0)
  else (readMantissa? body).map fun m => Decimal.ofDecimal negative m.1 m.2

end PluginKit.Text
