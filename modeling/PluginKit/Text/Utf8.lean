import PluginKit.Text.Basic

/-!
# UTF-8

Reading bytes as UTF-8 and refusing texts that cannot be written in it. A refusal names the bytes or the
characters that caused it and their positions, and why.
-/

namespace PluginKit.Text

inductive Utf8Reason where
  | start
  | continuation
  | ending
  deriving DecidableEq, Repr

def Utf8Reason.message : Utf8Reason → Text
  | .start => "invalid start byte"
  | .continuation => "invalid continuation byte"
  | .ending => "unexpected end of data"

/-- The bytes that could not be read: the first of them, its position, how many there are, and why. -/
structure DecodeError where
  byte : UInt8
  position : Nat
  length : Nat
  reason : Utf8Reason
  deriving DecidableEq, Repr

def DecodeError.message (e : DecodeError) : Text :=
  if e.length = 1 then
    "'utf-8' codec can't decode byte 0x" ++ hexNat 2 e.byte.toNat ++
      s!" in position {e.position}: " ++ e.reason.message
  else
    s!"'utf-8' codec can't decode bytes in position {e.position}-{e.position + e.length - 1}: " ++
      e.reason.message

/-- What the first byte of a character tells: how many bytes follow, the least and the greatest byte that
may come next, and its own share of the code point. -/
def leadByte? (b : Nat) : Option (Nat × Nat × Nat × Nat) :=
  if b < 0x80 then some (0, 0x80, 0xBF, b)
  else if 0xC2 ≤ b && b ≤ 0xDF then some (1, 0x80, 0xBF, b - 0xC0)
  else if b == 0xE0 then some (2, 0xA0, 0xBF, 0)
  else if b == 0xED then some (2, 0x80, 0x9F, 0xD)
  else if 0xE1 ≤ b && b ≤ 0xEF then some (2, 0x80, 0xBF, b - 0xE0)
  else if b == 0xF0 then some (3, 0x90, 0xBF, 0)
  else if 0xF1 ≤ b && b ≤ 0xF3 then some (3, 0x80, 0xBF, b - 0xF0)
  else if b == 0xF4 then some (3, 0x80, 0x8F, 4)
  else none

/-- The state of reading: how many bytes the current character still needs, the bounds of the next one,
the part of the code point read, the position and value of the first byte and the number of bytes read. -/
structure Utf8State where
  owed : Nat := 0
  low : Nat := 0x80
  high : Nat := 0xBF
  acc : Nat := 0
  first : UInt8 := 0
  origin : Nat := 0
  taken : Nat := 0

def decodeFrom (position : Nat) (q : Utf8State) : List UInt8 → Except DecodeError Text
  | [] => if q.owed = 0 then .ok [] else .error ⟨q.first, q.origin, q.taken, .ending⟩
  | b :: bs =>
    if q.owed = 0 then
      match leadByte? b.toNat with
      | none => .error ⟨b, position, 1, .start⟩
      | some (owed, low, high, acc) =>
        if owed = 0 then
          (decodeFrom (position + 1) {} bs).map (CodePoint.ofNat acc :: ·)
        else decodeFrom (position + 1) ⟨owed, low, high, acc, b, position, 1⟩ bs
    else if q.low ≤ b.toNat && b.toNat ≤ q.high then
      let acc := q.acc * 64 + (b.toNat - 0x80)
      if q.owed = 1 then (decodeFrom (position + 1) {} bs).map (CodePoint.ofNat acc :: ·)
      else decodeFrom (position + 1) ⟨q.owed - 1, 0x80, 0xBF, acc, q.first, q.origin, q.taken + 1⟩ bs
    else .error ⟨q.first, q.origin, q.taken, .continuation⟩

def decodeUtf8 (bytes : List UInt8) : Except DecodeError Text :=
  decodeFrom 0 {} bytes

/-- A run of surrogate halves that cannot be written in UTF-8: the first of them, its position in the text
and the length of the run. -/
structure EncodeError where
  code : Nat
  position : Nat
  length : Nat
  deriving DecidableEq, Repr

def EncodeError.message (e : EncodeError) : Text :=
  if e.length = 1 then
    "'utf-8' codec can't encode character '\\u" ++ hexNat 4 e.code ++ "' in position " ++
      toString e.position ++ ": surrogates not allowed"
  else
    s!"'utf-8' codec can't encode characters in position {e.position}-{e.position + e.length - 1}: " ++
      "surrogates not allowed"

def firstSurrogates? (position : Nat) : Text → Option EncodeError
  | [] => none
  | c :: cs =>
    if c.isSurrogate then some ⟨c.toNat, position, (cs.takeWhile CodePoint.isSurrogate).length + 1⟩
    else firstSurrogates? (position + 1) cs

def checkUtf8 (s : Text) : Except EncodeError Unit :=
  match firstSurrogates? 0 s with
  | none => .ok ()
  | some e => .error e

/-- The bytes of a text in UTF-8. The halves of surrogate pairs from U+DC80 on are the bytes that they stand
for. -/
def encodeUtf8 (s : Text) : List UInt8 :=
  s.flatMap fun
    | .scalar c => String.utf8EncodeChar c
    | .surrogate half => [UInt8.ofNat half.val]

end PluginKit.Text
