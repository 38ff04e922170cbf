import PluginKit.Text.Basic

/-!
# Base 64

Reading bytes that are written in base 64. Characters outside the alphabet are passed over; padding ends the
text once the last group has at least two characters.
-/

namespace PluginKit.Text

def sextet? (c : CodePoint) : Option Nat :=
  if 'A' ≤ c && c ≤ 'Z' then some (c.toNat - 'A'.toNat)
  else if 'a' ≤ c && c ≤ 'z' then some (c.toNat - 'a'.toNat + 26)
  else if '0' ≤ c && c ≤ '9' then some (c.toNat - '0'.toNat + 52)
  else if c = '+' then some 62
  else if c = '/' then some 63
  else none

/-- Reads the rest of a text: `place` characters of the current group have been read, `left` holds the bits
of the last one that have not been used yet, and `pads` padding signs stand directly before. -/
def decodeBase64From (place left pads : Nat) : Text → Option (List UInt8)
  | [] => if place = 0 then some [] else none
  | c :: cs =>
    if c = '=' then
      if place ≥ 2 then
        if place + pads + 1 ≥ 4 then some [] else decodeBase64From place left (pads + 1) cs
      else decodeBase64From place left pads cs
    else
      match sextet? c with
      | none => decodeBase64From place left pads cs
      | some n =>
        match place with
        | 0 => decodeBase64From 1 n 0 cs
        | 1 => (decodeBase64From 2 (n % 16) 0 cs).map ((left * 4 + n / 16).toUInt8 :: ·)
        | 2 => (decodeBase64From 3 (n % 4) 0 cs).map ((left * 16 + n / 4).toUInt8 :: ·)
        | _ => (decodeBase64From 0 0 0 cs).map ((left * 64 + n).toUInt8 :: ·)

def decodeBase64? (s : Text) : Option (List UInt8) :=
  decodeBase64From 0 0 0 s

end PluginKit.Text
