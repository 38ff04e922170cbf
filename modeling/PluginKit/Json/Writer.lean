import PluginKit.Value.Access

/-!
# Writing JSON

A value is written piece by piece, and the pieces that were made before a value without a JSON form is met
are kept, because they may already be in a file by then. The layout says how deep to indent, if at all, and
whether characters beyond ASCII are escaped.
-/

namespace PluginKit.Json

structure Layout where
  /-- The number of spaces per level, each element then standing on a line of its own. -/
  indent : Option Nat
  ascii : Bool

def compact : Layout := ⟨none, true⟩

def pretty : Layout := ⟨some 2, false⟩

def unitEscape (n : Nat) : Text :=
  '\\' :: 'u' :: (Text.hexNat 4 n)

/-- The escape of a character by one 16-bit unit, or by two beyond the first plane. -/
def charEscape (c : CodePoint) : Text :=
  let n := c.toNat
  if n < 0x10000 then unitEscape n
  else unitEscape (0xD800 + (n - 0x10000) / 0x400) ++ unitEscape (0xDC00 + (n - 0x10000) % 0x400)

def escapeChar (ascii : Bool) (c : CodePoint) : Text :=
  if c = '"' then ['\\', '"']
  else if c = '\\' then ['\\', '\\']
  else if c = '\n' then ['\\', 'n']
  else if c = '\r' then ['\\', 'r']
  else if c = '\t' then ['\\', 't']
  else if c = '\x08' then ['\\', 'b']
  else if c = '\x0c' then ['\\', 'f']
  else if c.toNat < 32 then unitEscape c.toNat
  else if ascii && c.toNat ≥ 127 then charEscape c
  else [c]

def quoteText (ascii : Bool) (s : Text) : Text :=
  "\"" ++ s.flatMap (escapeChar ascii) ++ "\""

/-- Numbers with a fraction, as elsewhere, with the names that JSON readers know for the special ones. -/
def numberStyle : Decimal.Style :=
  { Value.floatStyle with nan := "NaN", infinity := "Infinity" }

def integerText (n : Int) : Outcome Text :=
  (Value.int n).literal

def scalarText? (ascii : Bool) : Value → Option (Outcome Text)
  | .null => some (.ok "null")
  | .bool true => some (.ok "true")
  | .bool false => some (.ok "false")
  | .int n => some (integerText n)
  | .float x => some (.ok (numberStyle.write x))
  | .str s => some (.ok (quoteText ascii s))
  | _ => none

def keyText : Value → Outcome Text
  | .str s => .ok s
  | .null => .ok "null"
  | .bool true => .ok "true"
  | .bool false => .ok "false"
  | .int n => integerText n
  | .float x => .ok (numberStyle.write x)
  | k => .error (.misuse (.notJsonKey k.kind))

/-- The pieces written so far, and the fault that ended the writing, if any. -/
structure Emission where
  pieces : List Text
  fault : Option Fault

namespace Emission

def nothing : Emission := ⟨[], none⟩

def piece (s : Text) : Emission := ⟨[s], none⟩

def fail (f : Fault) : Emission := ⟨[], some f⟩

/-- The second writing after the first, unless the first was ended by a fault. -/
def andThen (a b : Emission) : Emission :=
  match a.fault with
  | some _ => a
  | none => ⟨a.pieces ++ b.pieces, b.fault⟩

def text (e : Emission) : Text := List.flatten e.pieces

end Emission

def Layout.newline (layout : Layout) (level : Nat) : Text :=
  match layout.indent with
  | some n => ('\n' :: List.replicate (n * level) ' ')
  | none => ""

def Layout.separator (layout : Layout) (level : Nat) : Text :=
  match layout.indent with
  | some _ => "," ++ layout.newline level
  | none => ", "

def Layout.close (layout : Layout) (level : Nat) (bracket : Text) : Emission :=
  match layout.indent with
  | some _ => ⟨[layout.newline level, bracket], none⟩
  | none => .piece bracket

def Layout.openDict (layout : Layout) (level : Nat) : Emission :=
  match layout.indent with
  | some _ => ⟨["\x7b", layout.newline (level + 1)], none⟩
  | none => .piece "\x7b"

mutual

/-- The pieces of a value that stands on a level, inside the loops with the given marks. -/
def emit (layout : Layout) (level : Nat) (around : List Nat) : Value → Emission
  | .list [] => .piece "[]"
  | .tuple [] => .piece "[]"
  | .dict [] => .piece "\x7b\x7d"
  | .list items =>
    (emitItems layout (level + 1) around ("[" ++ layout.newline (level + 1)) items).andThen
      (layout.close level "]")
  | .tuple items =>
    (emitItems layout (level + 1) around ("[" ++ layout.newline (level + 1)) items).andThen
      (layout.close level "]")
  | .dict entries =>
    (layout.openDict level).andThen
      ((emitEntries layout (level + 1) around true entries).andThen (layout.close level "\x7d"))
  | .loop mark body =>
    if around.contains mark then .fail (.badValue .circular) else emit layout level (mark :: around) body
  | .again _ => .fail (.badValue .circular)
  | v =>
    match scalarText? layout.ascii v with
    | some (.ok s) => .piece s
    | some (.error f) => .fail f
    | none => .fail (.misuse (.notSerializable v.kind))

/-- The pieces of elements; `before` opens the first of them and shares a piece with it if it has no
elements itself. -/
def emitItems (layout : Layout) (level : Nat) (around : List Nat) (before : Text) :
    List Value → Emission
  | [] => .nothing
  | x :: rest =>
    (match scalarText? layout.ascii x with
      | some (.ok s) => Emission.piece (before ++ s)
      | some (.error f) => .fail f
      | none => (Emission.piece before).andThen (emit layout level around x)).andThen
      (emitItems layout level around (layout.separator level) rest)

def emitEntries (layout : Layout) (level : Nat) (around : List Nat) (first : Bool) :
    List (Value × Value) → Emission
  | [] => .nothing
  | (k, v) :: rest =>
    match keyText k with
    | .error f => .fail f
    | .ok key =>
      (if first then .nothing else Emission.piece (layout.separator level)).andThen
        ((Emission.mk [quoteText layout.ascii key, ": "] none).andThen
          ((emit layout level around v).andThen (emitEntries layout level around false rest)))

end

def write (layout : Layout) (v : Value) : Outcome Text :=
  let e := emit layout 0 [] v
  match e.fault with
  | some f => .error f
  | none => .ok e.text

end PluginKit.Json
