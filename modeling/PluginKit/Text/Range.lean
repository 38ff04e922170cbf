import PluginKit.Text.CodePoint

/-!
# Classes of code points

A class of characters beyond ASCII is given by spans of code points: how many are passed over and how many belong to
the class, in turn, from the first code point on.
-/

namespace PluginKit.Text

/-- The code point that is `n` places behind the beginning of the spans belongs to the class. -/
def inSpans : List Nat → Nat → Bool
  | gap :: size :: spans, n =>
    if n < gap then false else if n < gap + size then true else inSpans spans (n - (gap + size))
  | _, _ => false

end PluginKit.Text
