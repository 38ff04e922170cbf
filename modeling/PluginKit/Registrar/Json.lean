import PluginKit.Json.Writer
import PluginKit.Registrar.Execute

/-!
# Data and JSON

Data come to a plugin file from JSON and leave it as JSON, on one line and without blanks. On the way out
functions and undefined data are left out of objects and become null in arrays, and numbers that are not
finite become null.
-/

namespace PluginKit.Registrar

/-- One code point between quotes. Half of a surrogate pair has no character of its own and is escaped. -/
def escapePoint (c : CodePoint) : Text :=
  if c.isSurrogate then Json.unitEscape c.toNat else Json.escapeChar false c

def quotedPoints (s : Text) : Text :=
  "\"" ++ s.flatMap escapePoint ++ "\""

/-- The datum brings a function for its JSON form. What the functions of plugin files give is a promise, which
has no fields. -/
def Datum.convertsItself (d : Datum) : Bool :=
  (d.property "toJSON").isFunction

mutual

def Datum.json? : Datum → Option Text
  | .undefined => none
  | .null => some "null"
  | .bool true => some "true"
  | .bool false => some "false"
  | .number x => some (if (Decimal.Binary64.ofFloat x).isFinite then numberText x else "null")
  | .text s => some (quotedPoints s)
  | .array items => some ("[" ++ Text.join "," (Datum.itemTexts items) ++ "]")
  | .object fields =>
    if (Datum.object fields).convertsItself then some "\x7b\x7d"
    else some ("\x7b" ++ Text.join "," (Datum.fieldTexts fields) ++ "\x7d")
  | .derived fields parent =>
    if (Datum.derived fields parent).convertsItself then some "\x7b\x7d"
    else some ("\x7b" ++ Text.join "," (Datum.fieldTexts fields) ++ "\x7d")
  | .regex _ _ => some "\x7b\x7d"
  | .handler _ => none
  | .method => none

def Datum.itemTexts : List Datum → List Text
  | [] => []
  | d :: rest => (Datum.json? d).getD "null" :: Datum.itemTexts rest

def Datum.fieldTexts : List (Text × Datum) → List Text
  | [] => []
  | (key, d) :: rest =>
    match Datum.json? d with
    | some s => (quotedPoints key ++ ":" ++ s) :: Datum.fieldTexts rest
    | none => Datum.fieldTexts rest

end

mutual

def Datum.ofValue : Value → Datum
  | .null => .null
  | .bool b => .bool b
  | .int n => Datum.ofInt n
  | .float x => .number x
  | .str s => .text s
  | .list items => .array (Datum.ofValues items)
  | .tuple items => .array (Datum.ofValues items)
  | .dict entries => .ofFields (Datum.ofEntries entries)
  | _ => .undefined

def Datum.ofValues : List Value → List Datum
  | [] => []
  | v :: rest => Datum.ofValue v :: Datum.ofValues rest

def Datum.ofEntries : List (Value × Value) → List (Text × Datum)
  | [] => []
  | (k, v) :: rest => ((Json.keyText k).toOption.getD [], Datum.ofValue v) :: Datum.ofEntries rest

end

def Answer.print (a : Answer) : Text :=
  a.toDatum.json?.getD "null"

end PluginKit.Registrar
