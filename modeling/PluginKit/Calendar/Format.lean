import PluginKit.Calendar.Clock
import PluginKit.Text.Case

/-!
# Time formats

A format is a text with directives, which a percent sign begins: then come flags that say how to fill up,
a width, and a letter that says what is shown. What is no directive stands for itself.

The fraction of the second and the zone are filled in first, wherever a percent sign and their letter stand
together; what comes of that is the format whose directives are then shown. There is room for so many
characters only, depending on the length of the format, and where they do not suffice nothing is shown at
all.
-/

namespace PluginKit

/-! ### What a time has to show -/

namespace Date

/-- The day of the week, Sunday being zero. -/
def weekday (d : Date) : Nat := d.ordinal % 7

/-- The day of the year, the first one being zero. -/
def dayOfYear (d : Date) : Nat := daysBeforeMonth d.year d.month + d.day - 1

/-- The week of the year; the days before the first one with the given number are in week zero. -/
def weekFrom (first : Nat) (d : Date) : Nat := (d.dayOfYear + 7 - (d.weekday + 7 - first) % 7) / 7

/-- The day of the week, Monday being zero. -/
def weekdayFromMonday (d : Date) : Nat := (d.weekday + 6) % 7

/-- The year to whose weeks the date belongs, and the number of its week there: a week belongs to the year of
its Thursday. -/
def weekYear (d : Date) : Nat × Nat :=
  let thursday : Int := (d.ordinal : Int) - d.weekdayFromMonday + 3
  let (year, _, _) := civil (thursday - 719163)
  (year.toNat, (thursday.toNat - daysBeforeYear year.toNat - 1) / 7 + 1)

end Date

def dayNames : List Text :=
  ["Sunday", "Monday", "Tuesday", "Wednesday", "Thursday", "Friday", "Saturday"]

def monthNames : List Text :=
  ["January", "February", "March", "April", "May", "June", "July", "August", "September", "October",
    "November", "December"]

def shortened (name : Text) : Text := name.take 3

def Date.dayName (d : Date) : Text := dayNames.getD d.weekday []

def Date.monthName (d : Date) : Text := monthNames.getD (d.month - 1) []

def DateTime.hour12 (t : DateTime) : Nat := if t.hour % 12 = 0 then 12 else t.hour % 12

def DateTime.half (t : DateTime) : Text := if t.hour < 12 then "AM" else "PM"

def DateTime.timestamp (t : DateTime) : Int :=
  ((t.date.ordinal : Int) - 719163) * secondsPerDay + (t.hour * 3600 + t.minute * 60 + t.second : Nat)

/-! ### Directives -/

inductive Fill where
  | zeros
  | blanks
  | bare
  deriving DecidableEq, Repr

structure Layout where
  fill : Option Fill
  upper : Bool
  swapped : Bool
  width : Nat

def Layout.plain : Layout := ⟨none, false, false, 0⟩

def capital (c : CodePoint) : CodePoint :=
  if 'a' ≤ c && c ≤ 'z' then .ofNat (c.toNat - 32) else Text.shiftCase Text.titleRuns c

def capitals (s : Text) : Text := s.map capital

def fillLeft (c : CodePoint) (width : Nat) (s : Text) : Text :=
  Text.times (width - s.length) c ++ s

namespace Layout

def widen (l : Layout) (s : Text) : Text :=
  fillLeft (if l.fill = some .zeros then '0' else ' ') l.width s

def words (l : Layout) (s : Text) : Text :=
  l.widen (if l.upper then capitals s else s)

/-- A name in the layout; swapped case means capitals. -/
def name (l : Layout) (s : Text) : Text := { l with upper := l.upper || l.swapped }.words s

def number (l : Layout) (usual : Fill) (digits n : Nat) : Text :=
  match l.fill.getD usual with
  | .zeros => fillLeft '0' (max digits l.width) (Text.padNat 0 n)
  | .blanks => fillLeft ' ' (max digits l.width) (Text.padNat 0 n)
  | .bare => fillLeft ' ' l.width (Text.padNat 0 n)

def count (l : Layout) (digits n : Nat) : Text := l.number .zeros digits n

end Layout

def two (n : Nat) : Text := Text.padNat 2 n

namespace DateTime

def slashed (t : DateTime) : Text :=
  two t.date.month ++ "/" ++ two t.date.day ++ "/" ++ two (t.date.year % 100)

def colons (t : DateTime) : Text := two t.hour ++ ":" ++ two t.minute ++ ":" ++ two t.second

def spelled (t : DateTime) : Text :=
  shortened t.date.dayName ++ " " ++ shortened t.date.monthName ++ " " ++
    fillLeft ' ' 2 (Text.padNat 0 t.date.day) ++ " " ++ t.colons ++ " " ++ Text.padNat 0 t.date.year

/-- What the letter of a directive shows, if it is one. The zone is not known and shows nothing. -/
def shown? (t : DateTime) (l : Layout) (letter : CodePoint) : Option Text :=
  let d := t.date
  match letter with
  | .scalar 'a' => some (l.name (shortened d.dayName))
  | .scalar 'A' => some (l.name d.dayName)
  | .scalar 'b' | .scalar 'h' => some (l.name (shortened d.monthName))
  | .scalar 'B' => some (l.name d.monthName)
  | .scalar 'c' => some (l.words t.spelled)
  | .scalar 'C' => some (l.count 1 (d.year / 100))
  | .scalar 'd' => some (l.count 2 d.day)
  | .scalar 'D' | .scalar 'x' => some (l.words t.slashed)
  | .scalar 'e' => some (l.number .blanks 2 d.day)
  | .scalar 'F' => some (l.words (Text.padNat 0 d.year ++ "-" ++ two d.month ++ "-" ++ two d.day))
  | .scalar 'g' => some (l.count 2 (d.weekYear.1 % 100))
  | .scalar 'G' => some (l.count 1 d.weekYear.1)
  | .scalar 'H' => some (l.count 2 t.hour)
  | .scalar 'I' => some (l.count 2 t.hour12)
  | .scalar 'j' => some (l.count 3 (d.dayOfYear + 1))
  | .scalar 'k' => some (l.number .blanks 2 t.hour)
  | .scalar 'l' => some (l.number .blanks 2 t.hour12)
  | .scalar 'm' => some (l.count 2 d.month)
  | .scalar 'M' => some (l.count 2 t.minute)
  | .scalar 'n' => some (l.words "\n")
  | .scalar 'p' => some (if l.swapped then l.widen (Text.lower t.half) else l.words t.half)
  | .scalar 'P' => some (l.widen (Text.lower t.half))
  | .scalar 'r' => some (l.words (two t.hour12 ++ ":" ++ two t.minute ++ ":" ++ two t.second ++ " " ++ t.half))
  | .scalar 'R' => some (l.words (two t.hour ++ ":" ++ two t.minute))
  | .scalar 's' => some (l.words s!"{t.timestamp}")
  | .scalar 'S' => some (l.count 2 t.second)
  | .scalar 't' => some (l.words "\t")
  | .scalar 'T' | .scalar 'X' => some (l.words t.colons)
  | .scalar 'u' => some (l.count 1 (d.weekdayFromMonday + 1))
  | .scalar 'U' => some (l.count 2 (d.weekFrom 0))
  | .scalar 'V' => some (l.count 2 d.weekYear.2)
  | .scalar 'w' => some (l.count 1 d.weekday)
  | .scalar 'W' => some (l.count 2 (d.weekFrom 1))
  | .scalar 'y' => some (l.count 2 (d.year % 100))
  | .scalar 'Y' => some (l.count 1 d.year)
  | .scalar 'z' => some []
  | .scalar 'Z' => some (if l.fill = some .bare then [] else l.widen [])
  | .scalar '%' => some (l.words "%")
  | _ => none

end DateTime

/-! ### Formats -/

def Layout.withFlag? (l : Layout) : CodePoint → Option Layout
  | .scalar '_' => some { l with fill := some .blanks }
  | .scalar '-' => some { l with fill := some .bare }
  | .scalar '0' => some { l with fill := some .zeros }
  | .scalar '^' => some { l with upper := true }
  | .scalar '#' => some { l with swapped := true }
  | _ => none

def readFlags (l : Layout) : Text → Layout × Text
  | [] => (l, [])
  | c :: rest =>
    match l.withFlag? c with
    | some l' => readFlags l' rest
    | none => (l, c :: rest)

/-- The letters whose directives have a variant with other eras or other digits. No variant looks different
from the directive itself. -/
def variantLetters : CodePoint → Text
  | .scalar 'E' => "cnprstuxyzCPRTXYZ%"
  | .scalar 'O' => "bdeghjklmnprstuwyzBCGHIMPRSTUVWZ%"
  | _ => []

/-- What is read before the letter of a directive: the layout, whether a letter can follow, and the rest. -/
structure Opening where
  layout : Layout
  allows : CodePoint → Bool
  rest : Text

def boundedNumber (bound : Nat) (digits : Text) : Nat :=
  digits.foldl (fun n c => min bound (n * 10 + (c.toNat - '0'.toNat))) 0

/-- Reads flags, a width of at most `bound` and the mark of a variant. -/
def readOpening (bound : Nat) (cs : Text) : Opening :=
  let (l, afterFlags) := readFlags .plain cs
  let digits := afterFlags.takeWhile Text.isAsciiDigit
  let l := { l with width := boundedNumber bound digits }
  match afterFlags.drop digits.length with
  | [] => ⟨l, fun _ => true, []⟩
  | c :: rest =>
    if (variantLetters c).isEmpty then ⟨l, fun _ => true, c :: rest⟩
    else ⟨l, (variantLetters c).contains, rest⟩

/-- A directive that does not exist, as it is shown: as it is written. That a month was meant is noticed early
enough to swap its case. -/
def Layout.unknown (l : Layout) (letter : CodePoint) (s : Text) : Text :=
  if letter = 'b' || letter = 'h' then l.name s else l.words s

/-- What a directive shows, whose characters after the percent sign begin the text, and what comes after it.
Widths of more than `bound` count as that much. -/
def DateTime.directive (t : DateTime) (bound : Nat) (cs : Text) : Text × Text :=
  let o := readOpening bound cs
  match o.rest with
  | [] => (o.layout.words ("%" ++ cs), [])
  | letter :: after =>
    match if o.allows letter then t.shown? o.layout letter else none with
    | some s => (s, after)
    | none => (o.layout.unknown letter ("%" ++ cs.take (cs.length - after.length)), after)

/-- A time in a format of at most `fuel` characters, if there is room for what it shows. -/
def DateTime.formatFrom (t : DateTime) : Nat → Nat → Text → Option Text
  | 0, _, _ => some []
  | _, _, [] => some []
  | fuel + 1, room, .scalar '%' :: rest =>
    let (s, after) := t.directive room rest
    if room ≤ s.length then none else (t.formatFrom fuel (room - s.length) after).map (s ++ ·)
  | fuel + 1, room, c :: rest =>
    if room ≤ 1 then none else (t.formatFrom fuel (room - 1) rest).map (c :: ·)

/-- The room for what a format of some length shows: the least power of two that is 1024 or more and 256 times
the length or more. -/
def roomFor (length : Nat) : Nat := 1024 * ((length + 3) / 4).nextPowerOfTwo

/-- A format with the fraction of the second and the zone, which is not known, filled in. -/
def DateTime.fillIn (t : DateTime) : Text → Text
  | .scalar '%' :: c :: rest =>
    if c = 'f' then Text.padNat 6 t.micro ++ t.fillIn rest
    else if c = 'z' || c = 'Z' then t.fillIn rest
    else "%" ++ c :: t.fillIn rest
  | c :: rest => c :: t.fillIn rest
  | [] => []

def isNotNull (c : CodePoint) : Bool := c != '\x00'

def DateTime.format (t : DateTime) (format : Text) : Text :=
  let filled := t.fillIn (format.takeWhile isNotNull)
  (t.formatFrom filled.length (roomFor filled.length) filled).getD []

def usualFormat : Text := "%Y-%m-%d %H:%M:%S"

/-- A timestamp in a format; without one, the time that it is now. -/
def formatTime (now : DateTime) (timestamp format : Value) : Outcome Text := do
  let t ← match timestamp with
    | .null => .ok now
    | v => DateTime.ofTimestamp v
  match format with
  | .str s =>
    match Text.checkUtf8 s with
    | .ok () => return t.format s
    | .error e => .error (.encode e)
  | v => .error (.misuse (.notText v.kind))

end PluginKit
