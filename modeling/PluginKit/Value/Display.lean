import PluginKit.Value.Basic
import PluginKit.Decimal.Style
import PluginKit.Text.Number
import PluginKit.Text.Quoted

/-!
# Values as text

A value has two written forms. `literal?` is the notation from which it could be read again; `display?` is
what a reader is shown, and differs only for texts, which stand without quotes, and for dates and times. A
whole number with too many digits has no written form, and so has no value that holds one. A collection that
is met again inside itself is written as three dots between its brackets.
-/

namespace PluginKit.Value

/-- Numbers with a fraction: positional from `0.0001` to below `10 ^ 16`, with at least one place, and with
exponents of at least two digits elsewhere. -/
def floatStyle : Decimal.Style where
  leastPoint := -3
  greatestPoint := 16
  keepsPoint := true
  exponentWidth := 2
  signedZero := true
  nan := "nan"
  infinity := "inf"

def integer? (n : Int) : Option Text :=
  if n.natAbs < Nat.pow 10 Text.maxDigits then some (toString n : String) else none

/-- How a collection of a kind is written where it is met again inside itself. -/
def ellipsis : Kind → Text
  | .dict => "\x7b...\x7d"
  | .tuple => "(...)"
  | .set => "set(...)"
  | _ => "[...]"

mutual

/-- The notation of a value inside the loops with the given marks. -/
def literalIn (around : List (Nat × Kind)) : Value → Option Text
  | null => some "None"
  | bool true => some "True"
  | bool false => some "False"
  | int n => integer? n
  | float x => some (floatStyle.write x)
  | str s => some (Text.quoted s)
  | bytes b => some (Text.quotedBytes b)
  | date d => some d.literal
  | datetime t => some t.literal
  | list items => do return "[" ++ (← literalsIn around items) ++ "]"
  | tuple [] => some "()"
  | tuple [x] => do return "(" ++ (← literalIn around x) ++ ",)"
  | tuple items => do return "(" ++ (← literalsIn around items) ++ ")"
  | set [] => some "set()"
  | set items => do return "\x7b" ++ (← literalsIn around items) ++ "\x7d"
  | dict entries => do return "\x7b" ++ (← entryLiteralsIn around entries) ++ "\x7d"
  | loop mark body =>
    if around.any (·.1 == mark) then some (ellipsis body.kind)
    else literalIn ((mark, body.kind) :: around) body
  | again mark => some (ellipsis (((around.find? (·.1 == mark)).map (·.2)).getD .list))

def literalsIn (around : List (Nat × Kind)) : List Value → Option Text
  | [] => some []
  | [x] => literalIn around x
  | x :: rest => do return (← literalIn around x) ++ ", " ++ (← literalsIn around rest)

def entryLiteralsIn (around : List (Nat × Kind)) : List (Value × Value) → Option Text
  | [] => some []
  | [(k, v)] => do return (← literalIn around k) ++ ": " ++ (← literalIn around v)
  | (k, v) :: rest => do
    return (← literalIn around k) ++ ": " ++ (← literalIn around v) ++ ", " ++
      (← entryLiteralsIn around rest)

end

def literal? (v : Value) : Option Text :=
  literalIn [] v

def display? : Value → Option Text
  | str s => some s
  | date d => some d.iso
  | datetime t => some (t.iso " ")
  | v => v.literal?

end PluginKit.Value
