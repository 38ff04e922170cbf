import PluginKit.Text.Scan
import PluginKit.Text.Word
import PluginKit.Value.Basic

/-!
# Fields of an object literal

A component can be registered by an object literal with its name, description, pattern and so on. The fields
are found by looking for their keys in the text of the literal; nothing else of it is understood. Quotes of
either kind open and close a text.
-/

namespace PluginKit.Bridge

open Text

def isQuote (c : CodePoint) : Bool := c == '"' || c == '\''

def isFlag (c : CodePoint) : Bool := ("gimsuy" : Text).contains c

def quotedText : Scanner Text := fun s => do
  let (_, s) ← takeChar isQuote s
  let (text, s) ← takeRun (!isQuote ·) s
  let (_, s) ← takeChar isQuote s
  return (text, s)

def bracketed (opening closing : CodePoint) : Scanner Text := fun s => do
  let (_, s) ← takeChar (· == opening) s
  let (inside, s) ← takeRun (· != closing) s
  let (_, s) ← takeChar (· == closing) s
  return (inside, s)

def keyed {α : Type} (key : Text) (value : Scanner α) : Scanner α := fun s => do
  let s ← after key s
  let s ← afterBlanks ":" s
  value (skipBlanks s)

def slashed : Scanner (Text × Text) := fun s => do
  let (_, s) ← takeChar (· == '/') s
  let (body, s) ← takeRun (· != '/') s
  let (_, s) ← takeChar (· == '/') s
  return ((body, s.takeWhile isFlag), s.dropWhile isFlag)

def skipQuote : Text → Text
  | [] => []
  | c :: s => if isQuote c then s else c :: s

def parameterKey : Scanner Text := fun s => do
  let (key, s) ← takeRun isWord (skipQuote s)
  let s ← afterBlanks ":" (skipQuote s)
  return (key, s)

def parameterText : Scanner Text := fun s => do
  let s ← after ":" s
  quotedText (skipBlanks s)

structure Fields where
  name : Option Text
  description : Option Text
  pattern : Option (Text × Text)
  require : Option (List Text)
  parameters : Option (List (Text × Text))
  types : Option (List Text)
  deriving DecidableEq, Repr

def quotedTexts (s : Text) : List Text :=
  findAll quotedText s

/-- The entries with a key set to a text: in place if the key is there, else at the end. -/
def setKey (key text : Text) : List (Text × Text) → List (Text × Text)
  | [] => [(key, text)]
  | (k, t) :: rest => if k = key then (key, text) :: rest else (k, t) :: setKey key text rest

/-- The parameters in the text of an object literal: the keys and the texts behind colons are found apart
from each other and then paired in order. -/
def parametersIn (s : Text) : List (Text × Text) :=
  let keys := findAll parameterKey s
  let texts := findAll parameterText s
  (keys.zip texts).foldl (fun acc p => setKey p.1 p.2 acc) []

def Fields.ofText (block : Text) : Fields where
  name := findFirst? (keyed "name" quotedText) block
  description := findFirst? (keyed "description" quotedText) block
  pattern := findFirst? (keyed "pattern" slashed) block
  require := (findFirst? (keyed "require" (bracketed '[' ']')) block).map quotedTexts
  parameters := (findFirst? (keyed "parameters" (bracketed '\x7b' '\x7d')) block).map parametersIn
  types := (findFirst? (keyed "types" (bracketed '[' ']')) block).map quotedTexts

def textList (items : List Text) : Value := .list (items.map .str)

def Fields.toValue (f : Fields) : Value :=
  .record (
    (f.name.map fun s => ("name", Value.str s)).toList ++
    (f.description.map fun s => ("description", Value.str s)).toList ++
    (match f.pattern with
      | some (body, flags) => [("pattern", .str body), ("pattern_flags", .str flags)]
      | none => []) ++
    (f.require.map fun l => ("require", textList l)).toList ++
    (f.parameters.map fun l =>
      ("parameters", Value.dict (l.map fun p => (.str p.1, .str p.2)))).toList ++
    (f.types.map fun l => ("types", textList l)).toList)

end PluginKit.Bridge
