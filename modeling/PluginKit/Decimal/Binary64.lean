/-!
# Double-precision numbers as integers

A finite double is `m * 2 ^ q` for a natural number `m` and an integer `q`. This module takes a double apart
into sign, `m` and `q` and finds the double nearest to a quotient of natural numbers, ties going to the even
neighbour. Both work with exact arithmetic on the bits.
-/

namespace PluginKit.Decimal

inductive Binary64 where
  | nan
  | infinite (negative : Bool)
  /-- The number `significand * 2 ^ exponent`. -/
  | finite (negative : Bool) (significand : Nat) (exponent : Int)
  deriving DecidableEq, Repr

def Binary64.isFinite : Binary64 → Bool
  | finite _ _ _ => true
  | _ => false

def Binary64.ofFloat (x : Float) : Binary64 :=
  let bits := x.toBits.toNat
  let negative := bits / Nat.pow 2 63 == 1
  let biased : Nat := bits / Nat.pow 2 52 % 2048
  let fraction : Nat := bits % Nat.pow 2 52
  if biased = 2047 then if fraction = 0 then .infinite negative else .nan
  else if biased = 0 then .finite negative fraction (-1074)
  else .finite negative (Nat.pow 2 52 + fraction) ((biased : Int) - 1075)

/-- The bits of the double `m * 2 ^ q`, where `m < 2 ^ 53` and `m` is small only for the least `q`. -/
def packBits (negative : Bool) (m : Nat) (q : Int) : UInt64 :=
  let sign := if negative then Nat.pow 2 63 else 0
  let magnitude :=
    if m < Nat.pow 2 52 then m
    else if q + 1075 ≥ 2047 then 2047 * Nat.pow 2 52
    else (q + 1075).toNat * Nat.pow 2 52 + (m - Nat.pow 2 52)
  (sign + magnitude).toUInt64

/-- The quotient rounded to the nearest natural number, a tie going to the even one. -/
def roundDiv (num den : Nat) : Nat :=
  let quotient := num / den
  let rest := num % den
  if 2 * rest < den then quotient
  else if 2 * rest > den then quotient + 1
  else if quotient % 2 = 0 then quotient else quotient + 1

def nearestFloat (negative : Bool) (num den : Nat) : Float :=
  if num = 0 ∨ den = 0 then Float.ofBits (packBits negative 0 0)
  else
    let guess : Int := num.log2 - den.log2 - 52
    -- The quotient has 53 or 54 bits after scaling by the guess; one more step settles which.
    let scaled (q : Int) : Nat := roundDiv (num * Nat.pow 2 (-q).toNat) (den * Nat.pow 2 q.toNat)
    let floorAt (q : Int) : Nat := (num * Nat.pow 2 (-q).toNat) / (den * Nat.pow 2 q.toNat)
    let exponent := if floorAt guess < Nat.pow 2 52 then guess - 1 else guess
    let q := max exponent (-1074)
    let m := scaled q
    if m = Nat.pow 2 53 then Float.ofBits (packBits negative (Nat.pow 2 52) (q + 1))
    else Float.ofBits (packBits negative m q)

/-- The double nearest to `digits * 10 ^ exponent`. Exponents far outside the range of doubles are not
computed with. -/
def ofDecimal (negative : Bool) (digits : Nat) (exponent : Int) : Float :=
  let size : Int := (Nat.toDigits 10 digits).length
  if digits = 0 ∨ size + exponent < -340 then nearestFloat negative 0 1
  else if size + exponent > 320 then Float.ofBits (packBits negative (Nat.pow 2 52) 2000)
  else nearestFloat negative (digits * Nat.pow 10 exponent.toNat) (Nat.pow 10 (-exponent).toNat)

end PluginKit.Decimal
