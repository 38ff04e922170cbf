import PluginKit.Text.CodePoint

/-!
# Blank characters

A blank is a space or a line or control separator of any script: the characters that trimming removes and
that separate words.
-/

namespace PluginKit.Text

/-- A blank character: tab to carriage return, the four information separators, the space, the next-line
and no-break characters and the typographic spaces. -/
def isBlank (c : CodePoint) : Bool :=
  let n := c.toNat
  (9 ≤ n && n ≤ 13) || (28 ≤ n && n ≤ 32) || n == 0x85 || n == 0xA0 || n == 0x1680 ||
    (0x2000 ≤ n && n ≤ 0x200A) || n == 0x2028 || n == 0x2029 || n == 0x202F || n == 0x205F || n == 0x3000

end PluginKit.Text
