import PluginKit.Text.Basic

/-!
# Dates and times

Calendar dates and times of day with an optional distance from universal time, the checks that make a date
real, the day count that orders them, and their written forms.
-/

namespace PluginKit

structure Date where
  year : Nat
  month : Nat
  day : Nat
  deriving DecidableEq, Repr

/-- A date with a time of day, and its distance from universal time in microseconds, if it is known. -/
structure DateTime where
  date : Date
  hour : Nat
  minute : Nat
  second : Nat
  micro : Nat
  offset : Option Int
  deriving DecidableEq, Repr

inductive CalendarError where
  | year (n : Nat)
  | month
  | day
  | hour
  | minute
  | second
  | offset (micros : Int)
  deriving DecidableEq, Repr

def microsPerSecond : Nat := 1000000

/-- A span of microseconds as whole days, the seconds beyond them and the microseconds beyond those. -/
def spanText (micros : Int) : Text :=
  let seconds := micros.fdiv microsPerSecond
  let days := seconds.fdiv 86400
  let part (name : String) (n : Int) : List Text := if n = 0 then [] else [s!"{name}={n}"]
  let parts :=
    part "days" days ++ part "seconds" (seconds.fmod 86400) ++
      part "microseconds" (micros.fmod microsPerSecond)
  "datetime.timedelta(" ++ (if parts.isEmpty then ("0" : Text) else Text.join ", " parts) ++ ")"

def CalendarError.message : CalendarError → Text
  | .year n => s!"year {n} is out of range"
  | .month => "month must be in 1..12"
  | .day => "day is out of range for month"
  | .hour => "hour must be in 0..23"
  | .minute => "minute must be in 0..59"
  | .second => "second must be in 0..59"
  | .offset micros =>
    "offset must be a timedelta strictly between -timedelta(hours=24) and timedelta(hours=24), not " ++
      spanText micros ++ "."

def isLeapYear (year : Nat) : Bool :=
  year % 4 == 0 && (year % 100 != 0 || year % 400 == 0)

def daysInMonth (year month : Nat) : Nat :=
  if month = 2 then if isLeapYear year then 29 else 28
  else if month = 4 ∨ month = 6 ∨ month = 9 ∨ month = 11 then 30
  else 31

def Date.make (year month day : Nat) : Except CalendarError Date :=
  if year < 1 ∨ year > 9999 then .error (.year year)
  else if month < 1 ∨ month > 12 then .error .month
  else if day < 1 ∨ day > daysInMonth year month then .error .day
  else .ok ⟨year, month, day⟩

def DateTime.make (year month day hour minute second micro : Nat) (offset : Option Int) :
    Except CalendarError DateTime := do
  let date ← Date.make year month day
  if hour > 23 then throw .hour
  if minute > 59 then throw .minute
  if second > 59 then throw .second
  return ⟨date, hour, minute, second, micro, offset⟩

def Date.iso (d : Date) : Text :=
  Text.padNat 4 d.year ++ "-" ++ Text.padNat 2 d.month ++ "-" ++ Text.padNat 2 d.day

/-- A distance from universal time as `+08:00`, with seconds and a fraction if there are any. -/
def offsetText (micros : Int) : Text :=
  let fraction := micros.natAbs % microsPerSecond
  let seconds := micros.natAbs / microsPerSecond
  (if micros < 0 then "-" else "+") ++ Text.padNat 2 (seconds / 3600) ++ ":" ++
    Text.padNat 2 (seconds / 60 % 60) ++
    Text.onlyIf (seconds % 60 != 0 || fraction != 0) (":" ++ Text.padNat 2 (seconds % 60)) ++
    Text.onlyIf (fraction != 0) ("." ++ Text.padNat 6 fraction)

/-- The time as `2024-05-06T07:08:09`, with the given text between date and time, and with the fraction and
the distance from universal time if there are any. -/
def DateTime.iso (between : Text) (t : DateTime) : Text :=
  t.date.iso ++ between ++ Text.padNat 2 t.hour ++ ":" ++ Text.padNat 2 t.minute ++ ":" ++
    Text.padNat 2 t.second ++ Text.onlyIf (t.micro != 0) ("." ++ Text.padNat 6 t.micro) ++
    (t.offset.map offsetText).getD ""

def Date.literal (d : Date) : Text :=
  s!"datetime.date({d.year}, {d.month}, {d.day})"

def offsetLiteral (micros : Int) : Text :=
  if micros = 0 then "datetime.timezone.utc" else "datetime.timezone(" ++ spanText micros ++ ")"

/-- The time as a constructor call; seconds and fraction are left out from the end while they are zero. -/
def DateTime.literal (t : DateTime) : Text :=
  let base := [t.date.year, t.date.month, t.date.day, t.hour, t.minute]
  let tail := if t.micro ≠ 0 then [t.second, t.micro] else if t.second ≠ 0 then [t.second] else []
  let args : List Text := (base ++ tail).map (Text.ofString <| toString ·) ++
    (match t.offset with
    | some micros => ["tzinfo=" ++ offsetLiteral micros]
    | none => [])
  "datetime.datetime(" ++ Text.join ", " args ++ ")"

def daysBeforeYear (year : Nat) : Nat :=
  let y := year - 1
  y * 365 + y / 4 - y / 100 + y / 400

def daysBeforeMonth (year month : Nat) : Nat :=
  (List.range (month - 1)).foldl (fun days m => days + daysInMonth year (m + 1)) 0

/-- The number of days since the day before 1 January of year 1. -/
def Date.ordinal (d : Date) : Nat :=
  daysBeforeYear d.year + daysBeforeMonth d.year d.month + d.day

def DateTime.instant (t : DateTime) (offset : Int) : Int :=
  (((t.date.ordinal * 24 + t.hour) * 60 + t.minute) * 60 + t.second) * microsPerSecond + t.micro - offset

/-- Two times are the same: the same instant, if both know their distance from universal time, and the same
reading of the clock, if neither does. -/
def DateTime.same (s t : DateTime) : Bool :=
  match s.offset, t.offset with
  | some a, some b => s.instant a == t.instant b
  | none, none => s == t
  | _, _ => false

end PluginKit
