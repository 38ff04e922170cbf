import PluginKit.Decimal.Shortest
import PluginKit.Text.Basic

/-!
# Writing a double

A style says how the shortest digits of a double are laid out: for which sizes the point is placed among the
digits, whether a whole number keeps a point, and how an exponent and the special values are written.
-/

namespace PluginKit.Decimal

structure Style where
  /-- The least position of the point for which no exponent is written. -/
  leastPoint : Int
  greatestPoint : Int
  /-- Whole numbers end in `.0`. -/
  keepsPoint : Bool
  exponentWidth : Nat
  signedZero : Bool
  nan : Text
  infinity : Text

def positional (keepsPoint : Bool) (digits : Text) (point : Int) : Text :=
  if point ≤ 0 then "0." ++ Text.times (-point).toNat '0' ++ digits
  else
    let whole := point.toNat
    if digits.length ≤ whole then
      digits ++ Text.times (whole - digits.length) '0' ++ (if keepsPoint then ".0" else "")
    else digits.take whole ++ "." ++ digits.drop whole

def exponential (width : Nat) (digits : Text) (point : Int) : Text :=
  let e := point - 1
  let fraction := digits.drop 1
  digits.take 1 ++ Text.onlyIf (!fraction.isEmpty) ("." ++ fraction) ++
    (if e < 0 then "e-" else "e+") ++ Text.padNat width e.natAbs

def Style.write (style : Style) (x : Float) : Text :=
  match Binary64.ofFloat x with
  | .nan => style.nan
  | .infinite negative => (if negative then "-" else "") ++ style.infinity
  | .finite negative 0 _ =>
    (if negative && style.signedZero then "-" else "") ++ (if style.keepsPoint then "0.0" else "0")
  | .finite negative m q =>
    let d := shortest m q
    let digits : Text := d.digits.map .scalar
    (if negative then "-" else "") ++
      if style.leastPoint ≤ d.point && d.point ≤ style.greatestPoint then
        positional style.keepsPoint digits d.point
      else exponential style.exponentWidth digits d.point

end PluginKit.Decimal
