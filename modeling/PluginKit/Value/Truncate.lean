import PluginKit.Value.Access

/-!
# Cutting values

A text or another sequence that is longer than allowed is cut, and a suffix says so. The suffix counts: what
is kept has the allowed length together with it. An allowed length that is shorter than the suffix counts from
the end of the text instead.
-/

namespace PluginKit.Value

def atMostFloat (n : Nat) : Decimal.Binary64 → Bool
  | .nan => false
  | .infinite negative => !negative
  | .finite negative m q =>
    if negative then n = 0 && m = 0 else decide (n * Nat.pow 2 (-q).toNat ≤ m * Nat.pow 2 q.toNat)

def atMost (n : Nat) : Value → Outcome Bool
  | int k => .ok (decide ((n : Int) ≤ k))
  | bool b => .ok (decide (n ≤ b.toNat))
  | float x => .ok (atMostFloat n (.ofFloat x))
  | v => .error (.misuse (.notOrdered .int v.kind))

/-- The number of elements before an end, which counts from the end of the sequence if it is negative. -/
def cutLength (length : Nat) (stop : Int) : Nat :=
  if stop < 0 then (length + stop).toNat else stop.toNat

def whole : Value → Outcome Int
  | int k => .ok k
  | bool b => .ok b.toNat
  | v => .error (.misuse (.notNumber v.kind))

/-- A sequence cut to a greatest length, suffix included, if it is longer. -/
def truncate (v greatest suffix : Value) : Outcome Value := do
  let length ← v.length
  if ← atMost length greatest then return v
  else
    let stop := (← whole greatest) - (← suffix.length)
    (← v.front (cutLength length stop)).append suffix

end PluginKit.Value
