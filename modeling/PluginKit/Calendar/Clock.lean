import PluginKit.Decimal.Binary64
import PluginKit.Value.Fault

/-!
# Timestamps

A timestamp counts the seconds since the beginning of 1970 in universal time. It is whole or has a fraction,
which is rounded to microseconds, a tie going to the even one. The clock shows it only if its year has one to
four digits, and also the year of one day earlier.
-/

namespace PluginKit

def secondsPerDay : Nat := 86400

/-- Year, month and day of a day counted from 1 January 1970, by eras of 400 years that begin in March. -/
def civil (days : Int) : Int × Nat × Nat :=
  let shifted := days + 719468
  let era := shifted.fdiv 146097
  let dayOfEra := (shifted.fmod 146097).toNat
  let yearOfEra := (dayOfEra - dayOfEra / 1460 + dayOfEra / 36524 - dayOfEra / 146096) / 365
  let dayOfYear := dayOfEra - (365 * yearOfEra + yearOfEra / 4 - yearOfEra / 100)
  let shiftedMonth := (5 * dayOfYear + 2) / 153
  let day := dayOfYear - (153 * shiftedMonth + 2) / 5 + 1
  let month := if shiftedMonth < 10 then shiftedMonth + 3 else shiftedMonth - 9
  let year := yearOfEra + era * 400
  (if month ≤ 2 then year + 1 else year, month, day)

def countsYear (year : Int) : Bool := decide (-0x80000000 ≤ year - 1900) && decide (year - 1900 < 0x80000000)

def checkYear (seconds : Int) : Outcome Unit :=
  let year := (civil (seconds.fdiv secondsPerDay)).1
  if !countsYear year then .error (.clock .yearTooLarge)
  else if year < 1 || 9999 < year then
    .error (.badValue (.other s!"year {Int.bmod year (Nat.pow 2 32)} is out of range"))
  else .ok ()

def DateTime.ofMicros (micros : Int) : DateTime :=
  let seconds := micros.fdiv microsPerSecond
  let (year, month, day) := civil (seconds.fdiv secondsPerDay)
  let rest := (seconds.fmod secondsPerDay).toNat
  ⟨⟨year.toNat, month, day⟩, rest / 3600, rest / 60 % 60, rest % 60,
    (micros.fmod microsPerSecond).toNat, none⟩

def fitsCounter (seconds : Int) : Bool := decide (-0x8000000000000000 ≤ seconds) && decide (seconds < 0x8000000000000000)

/-- The fraction `num / den` of a second in microseconds. The product is a double before it is rounded. -/
def fractionMicros (num den : Nat) : Nat :=
  match Decimal.Binary64.ofFloat (Decimal.nearestFloat false (num * microsPerSecond) den) with
  | .finite _ m q => Decimal.roundDiv (m * Nat.pow 2 q.toNat) (Nat.pow 2 (-q).toNat)
  | _ => 0

def floatMicros : Decimal.Binary64 → Outcome Int
  | .nan => .error (.badValue (.other "Invalid value NaN (not a number)"))
  | .infinite _ => .error (.clock .counterOverflow)
  | .finite negative m q =>
    let num := m * Nat.pow 2 q.toNat
    let den := Nat.pow 2 (-q).toNat
    let micros : Int := num / den * microsPerSecond + fractionMicros (num % den) den
    let signed := if negative then -micros else micros
    if fitsCounter (signed.fdiv microsPerSecond) then .ok signed else .error (.clock .counterOverflow)

def timestampMicros : Value → Outcome Int
  | .int n => if fitsCounter n then .ok (n * microsPerSecond) else .error (.clock .counterOverflow)
  | .bool b => .ok (b.toNat * microsPerSecond)
  | .float x => floatMicros (.ofFloat x)
  | v => .error (.misuse (.notNumber v.kind))

def DateTime.ofTimestamp (v : Value) : Outcome DateTime := do
  let micros ← timestampMicros v
  let seconds := micros.fdiv microsPerSecond
  checkYear seconds
  checkYear (seconds - secondsPerDay)
  return .ofMicros micros

end PluginKit
