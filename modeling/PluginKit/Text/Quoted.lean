import PluginKit.Text.Basic
import PluginKit.Text.Printable

/-!
# Quoted texts

The notation of a text as a literal: between single quotes, or between double quotes when the text holds a
single quote and no double one. A backslash, the quote itself and the line controls have short escapes, and
every other character that is not printable is written by its code.
-/

namespace PluginKit.Text

/-- The escape of a character by its code, with as few digits as its size allows. -/
def codeEscape (n : Nat) : Text :=
  if n < 0x100 then "\\x" ++ hexNat 2 n
  else if n < 0x10000 then "\\u" ++ hexNat 4 n
  else "\\U" ++ hexNat 8 n

def quoteFor (s : Text) : CodePoint :=
  if s.contains '\'' && !s.contains '"' then '"' else '\''

def quotedChar (quote c : CodePoint) : Text :=
  if c = quote || c = '\\' then ['\\', c]
  else if c = '\n' then "\\n"
  else if c = '\r' then "\\r"
  else if c = '\t' then "\\t"
  else if isPrintable c then [c]
  else codeEscape c.toNat

def quoted (s : Text) : Text :=
  let quote := quoteFor s
  quote :: s.flatMap (quotedChar quote) ++ [quote]

def quotedByte (quote : CodePoint) (b : UInt8) : Text :=
  let c := CodePoint.ofNat b.toNat
  if c = quote || c = '\\' then ['\\', c]
  else if c = '\n' then "\\n"
  else if c = '\r' then "\\r"
  else if c = '\t' then "\\t"
  else if b < 32 || b ≥ 127 then "\\x" ++ hexNat 2 b.toNat
  else [c]

def quotedBytes (bytes : List UInt8) : Text :=
  let quote := quoteFor (bytes.map fun b => CodePoint.ofNat b.toNat)
  "b" ++ quote :: bytes.flatMap (quotedByte quote) ++ [quote]

end PluginKit.Text
