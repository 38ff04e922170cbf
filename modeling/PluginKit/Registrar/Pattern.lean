import PluginKit.Registrar.Datum

/-!
# Patterns of commands

A command can be given a regular expression, or a text: one that begins with `/` or `^` is read as a regular
expression, and any other stands for itself. The source of a regular expression is kept in a form that could
stand between slashes.
-/

namespace PluginKit.Registrar

/-! ### Well-formed regular expressions -/

inductive RegexProblem where
  | unterminatedGroup
  | unterminatedClass
  | nothingToRepeat
  | unmatched
  | trailingBackslash
  | invalidGroup
  | rangeOrder
  deriving DecidableEq, Repr

def RegexProblem.message : RegexProblem → Text
  | unterminatedGroup => "Unterminated group"
  | unterminatedClass => "Unterminated character class"
  | nothingToRepeat => "Nothing to repeat"
  | unmatched => "Unmatched ')'"
  | trailingBackslash => "\\ at end of pattern"
  | invalidGroup => "Invalid group"
  | rangeOrder => "numbers out of order in \x7b\x7d quantifier"

/-- A number of repetitions behind an opening brace: how many characters it takes and its bounds. -/
def repetition? (s : Text) : Option (Nat × Nat × Option Nat) :=
  let isDigit (c : CodePoint) : Bool := '0' ≤ c && c ≤ '9'
  let value (ds : Text) : Nat := ds.foldl (fun n d => 10 * n + (d.toNat - '0'.toNat)) 0
  let low := s.takeWhile isDigit
  if low.isEmpty then none
  else
    match s.drop low.length with
    | .scalar '\x7d' :: _ => some (low.length + 1, value low, some (value low))
    | .scalar ',' :: rest =>
      let high := rest.takeWhile isDigit
      match rest.drop high.length with
      | .scalar '\x7d' :: _ =>
        some (low.length + high.length + 2, value low, if high.isEmpty then none else some (value high))
      | _ => none
    | _ => none

inductive RegexPlace where
  /-- Between items; the flag says that the item before can be repeated. -/
  | item (repeatable : Bool)
  | inClass
  /-- Behind a repetition, which a question mark can make reluctant. -/
  | repeated

/-- How many characters of the opening of a group stand behind its bracket, unless it is no group. -/
def groupMark? : Text → Option Nat
  | .scalar '?' :: mark :: _ => if mark = ':' || mark = '=' || mark = '!' || mark = '<' then some 2 else none
  | [.scalar '?'] => none
  | _ => some 0

/-- Reads a character outside of classes, with the text behind it: how many groups are open then, where the
reading stands, and how many more characters were taken. -/
def itemStep (depth : Nat) (repeatable : Bool) (c : CodePoint) (s : Text) :
    Except RegexProblem (Nat × RegexPlace × Nat) :=
  if c = '*' || c = '+' || c = '?' then
    if repeatable then .ok (depth, .repeated, 0) else .error .nothingToRepeat
  else if c = '\\' then
    if s.isEmpty then .error .trailingBackslash
    else .ok (depth, .item (s.head? != some 'b' && s.head? != some 'B'), 1)
  else if c = '[' then .ok (depth, .inClass, 0)
  else if c = ')' then
    if depth = 0 then .error .unmatched else .ok (depth - 1, .item true, 0)
  else if c = '(' then
    match groupMark? s with
    | some skip => .ok (depth + 1, .item false, skip)
    | none => .error .invalidGroup
  else if c = '|' || c = '^' || c = '$' then .ok (depth, .item false, 0)
  else if c = '\x7b' then
    match repetition? s with
    | none => .ok (depth, .item true, 0)
    | some (length, low, high) =>
      if !repeatable then .error .nothingToRepeat
      else if high.any (· < low) then .error .rangeOrder
      else .ok (depth, .repeated, length)
  else .ok (depth, .item true, 0)

def regexStep (depth : Nat) (place : RegexPlace) (c : CodePoint) (s : Text) :
    Except RegexProblem (Nat × RegexPlace × Nat) :=
  match place with
  | .inClass =>
    if c = ']' then .ok (depth, .item true, 0)
    else if c = '\\' then
      if s.isEmpty then .error .trailingBackslash else .ok (depth, .inClass, 1)
    else .ok (depth, .inClass, 0)
  | .repeated => if c = '?' then .ok (depth, .item false, 0) else itemStep depth false c s
  | .item repeatable => itemStep depth repeatable c s

/-- The first problem of a regular expression, from the point where `skip` more characters have been passed;
`depth` groups are open. -/
def regexProblemFrom (depth : Nat) (place : RegexPlace) : Nat → Text → Option RegexProblem
  | _, [] =>
    match place with
    | .inClass => some .unterminatedClass
    | _ => if depth = 0 then none else some .unterminatedGroup
  | skip + 1, _ :: s => regexProblemFrom depth place skip s
  | 0, c :: s =>
    match regexStep depth place c s with
    | .error p => some p
    | .ok (d, next, skip) => regexProblemFrom d next skip s

def regexProblem? (source : Text) : Option RegexProblem :=
  regexProblemFrom 0 (.item false) 0 source

/-! ### The source of a regular expression -/

def lineEndLetters? (c : CodePoint) : Option Text :=
  if c = '\n' then some "n"
  else if c = '\r' then some "r"
  else if c.toNat = 0x2028 then some "u2028"
  else if c.toNat = 0x2029 then some "u2029"
  else none

/-- The source with slashes outside of classes and line ends escaped; `escaped` says that the character
before was a backslash that escapes. -/
def escapeSource (inClass escaped : Bool) : Text → Text
  | [] => []
  | c :: s =>
    match lineEndLetters? c with
    | some letters => Text.onlyIf (!escaped) "\\" ++ letters ++ escapeSource inClass false s
    | none =>
      if escaped then c :: escapeSource inClass false s
      else if c = '\\' then c :: escapeSource inClass true s
      else if inClass then c :: escapeSource (c != ']') false s
      else if c = '/' then "\\/" ++ escapeSource false false s
      else c :: escapeSource (c == '[') false s

def sortFlags (flags : Text) : Text :=
  ("dgimsuy" : Text).filter flags.contains

def regexOf (source flags : Text) : Datum :=
  .regex (if source.isEmpty then "(?:)" else escapeSource false false source) (sortFlags flags)

def compile (source : Text) : Attempt Datum :=
  match regexProblem? source with
  | none => .ok (regexOf source "")
  | some p =>
    .error (.error .syntactic ("Invalid regular expression: /" ++ source ++ "/: " ++ p.message))

def isSpecial (c : CodePoint) : Bool :=
  (".*+?^$\x7b\x7d()|[]\\" : Text).contains c

def exactSource (s : Text) : Text :=
  "^" ++ s.flatMap (fun c => Text.onlyIf (isSpecial c) "\\" ++ [c]) ++ "$"

def normalizePattern (d : Datum) : Attempt Datum :=
  if d.isRegex then .ok d
  else
    match d with
    | .text [] => .ok .null
    | .text (c :: s) => if c = '/' || c = '^' then compile (c :: s) else compile (exactSource (c :: s))
    | _ => .ok .null

end PluginKit.Registrar
