import PluginKit.Decimal.Binary64

/-!
# The fewest digits that read back

The decimal notation of a double with the fewest significant digits among those that are nearer to it than
to any other double. For one digit, two digits and so on, the two neighbours of the number on that decimal
grid are tried; the first grid on which one of them lies in the interval of numbers that round to the double
gives the digits. All arithmetic is on natural numbers.
-/

namespace PluginKit.Decimal

/-- Decimal digits `digits` with the point after the first `point` of them (before them, for a negative
`point`). -/
structure Digits where
  digits : List Char
  point : Int
  deriving DecidableEq, Repr

/-- The interval of numbers that round to a double, as numerators over one denominator. -/
structure Rounding where
  value : Nat
  low : Nat
  high : Nat
  den : Nat
  closed : Bool

def Rounding.of (m : Nat) (q : Int) : Rounding :=
  let down := if m = Nat.pow 2 52 ∧ q > -1074 then 1 else 2
  let up := Nat.pow 2 (q - 2).toNat
  ⟨4 * m * up, (4 * m - down) * up, (4 * m + 2) * up, Nat.pow 2 (2 - q).toNat, m % 2 = 0⟩

def Rounding.contains (r : Rounding) (num den : Nat) : Bool :=
  let x := num * r.den
  let low := r.low * den
  let high := r.high * den
  if r.closed then low ≤ x && x ≤ high else low < x && x < high

/-- The least `k` with `value < den * 10 ^ k`, searched upward from `k`. -/
def decimalPoint (value den : Nat) : Nat → Int → Int
  | 0, k => k
  | fuel + 1, k =>
    if value * Nat.pow 10 (-k).toNat < den * Nat.pow 10 k.toNat then k else decimalPoint value den fuel (k + 1)

/-- The candidate with `n` digits, if one of the two neighbours on that grid rounds to the double. -/
def candidate? (r : Rounding) (point : Int) (n : Nat) : Option Nat :=
  let scale := point - n
  -- One unit of the grid is `10 ^ scale`.
  let up := Nat.pow 10 scale.toNat
  let down := Nat.pow 10 (-scale).toNat
  let below := r.value * down / (r.den * up)
  let above := below + 1
  let low := below ≠ 0 && r.contains (below * up) down
  let high := r.contains (above * up) down
  if low && high then
    let rest := 2 * (r.value * down - below * r.den * up)
    if rest < r.den * up then some below
    else if rest > r.den * up then some above
    else if below % 2 = 0 then some below else some above
  else if low then some below
  else if high then some above
  else none

/-- The first candidate from `n` digits on. Seventeen digits are always enough for a double, so the fuel does
not run out. -/
def firstCandidate (r : Rounding) (point : Int) : Nat → Nat → Nat × Nat
  | 0, n => (1, n)
  | fuel + 1, n =>
    match candidate? r point n with
    | some digits => (digits, n)
    | none => firstCandidate r point fuel (n + 1)

def shortest (m : Nat) (q : Int) : Digits :=
  let r := Rounding.of m q
  let start : Int := (((r.value.log2 : Int) - r.den.log2) * 30103).fdiv 100000 - 1
  let point := decimalPoint r.value r.den 8 start
  let (digits, n) := firstCandidate r point 17 1
  let text := Nat.toDigits 10 digits
  let kept := (text.reverse.dropWhile (· == '0')).reverse
  ⟨kept, point + (text.length - n)⟩

end PluginKit.Decimal
