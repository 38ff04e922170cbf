import PluginKit.Decimal.Style
import PluginKit.Text.Basic

/-!
# Data of plugin files

A plugin file is a script, and what it hands to the registrar or gets from its context is a datum: a number,
a text, an array, an object and so on. Among the data are the handlers of components. What a handler does is
known as a list of steps: it calls methods of its context, one after another, and then returns or throws.

The text of a datum can fail to exist: an object that brings its own `toString`, which is not a method that
gives a text, has none.
-/

namespace PluginKit.Registrar

mutual

inductive Datum where
  | undefined
  | null
  | bool (b : Bool)
  | number (x : Float)
  | text (s : Text)
  | array (items : List Datum)
  | object (fields : List (Text × Datum))
  /-- An object that has what it does not have itself from another datum. -/
  | derived (fields : List (Text × Datum)) (parent : Datum)
  | regex (source flags : Text)
  | handler (h : Handler)
  | method

inductive Handler where
  | reply (text : Text)
  | steps (steps : List Step) (ending : Ending)

inductive Step where
  /-- Calls a method of the context and notes what it gives. -/
  | call (method : Text) (args : List Datum)
  /-- Sends what a method of the context gives. -/
  | echo (method : Text) (args : List Datum)
  | read (key : Text)

inductive Ending where
  | returns (d : Datum)
  | fails (message : Text)
  | throws (d : Datum)

end

inductive ErrorKind where
  | plain
  | type
  | syntactic
  deriving DecidableEq, Repr

def ErrorKind.name : ErrorKind → Text
  | plain => "Error"
  | type => "TypeError"
  | syntactic => "SyntaxError"

inductive Thrown where
  | error (kind : ErrorKind) (message : Text)
  | datum (d : Datum)

def Thrown.typeError (message : Text) : Thrown := .error .type message

abbrev Attempt (α : Type) := Except Thrown α

/-! ### Numbers and texts -/

/-- Numbers of plugin files: positional from `0.000001` to below `10 ^ 21`. -/
def numberStyle : Decimal.Style where
  leastPoint := -5
  greatestPoint := 21
  keepsPoint := false
  exponentWidth := 1
  signedZero := false
  nan := "NaN"
  infinity := "Infinity"

def numberText (x : Float) : Text := numberStyle.write x

def Datum.ofInt (n : Int) : Datum :=
  .number (Decimal.nearestFloat (decide (n < 0)) n.natAbs 1)

def charUnits (c : CodePoint) : Text :=
  let n := c.toNat
  if n < 0x10000 then [c]
  else [.ofNat (0xD800 + (n - 0x10000) / 0x400), .ofNat (0xDC00 + (n - 0x10000) % 0x400)]

/-- The 16-bit units of a text, each held as a code point. -/
def units (s : Text) : Text :=
  s.flatMap charUnits

def objectText : Text := "[object Object]"

def noPrimitive : Thrown := .typeError "Cannot convert object to primitive value"

namespace Datum

def truthy : Datum → Bool
  | undefined => false
  | null => false
  | bool b => b
  | number x => !(x == 0 || x.isNaN)
  | text s => !s.isEmpty
  | _ => true

/-- The datum is neither null nor undefined. -/
def given : Datum → Bool
  | undefined => false
  | null => false
  | _ => true

def orElse (a b : Datum) : Datum := if a.truthy then a else b

def withDefault (a b : Datum) : Datum :=
  match a with
  | undefined => b
  | _ => a

def isNull : Datum → Bool
  | null => true
  | _ => false

def isText : Datum → Bool
  | text _ => true
  | _ => false

/-- The datum is a regular expression, or an object that has what it has from one. -/
def isRegex : Datum → Bool
  | regex _ _ => true
  | derived _ parent => isRegex parent
  | _ => false

def isFunction : Datum → Bool
  | handler _ => true
  | method => true
  | _ => false

mutual

def toText : Datum → Attempt Text
  | undefined => .ok "undefined"
  | null => .ok "null"
  | bool true => .ok "true"
  | bool false => .ok "false"
  | number x => .ok (numberText x)
  | text s => .ok s
  | array items => joinedWith "," items
  | object fields =>
    if fields.any (·.1 == "toString") then .error noPrimitive else .ok objectText
  | derived fields parent =>
    if fields.any (·.1 == "toString") || parent.isNull then .error noPrimitive else toText parent
  | regex source flags => .ok ("/" ++ source ++ "/" ++ flags)
  | handler _ => .ok "[function]"
  | method => .ok "[function]"

/-- The texts of data with a separator between neighbours; missing data are empty. -/
def joinedWith (sep : Text) : List Datum → Attempt Text
  | [] => .ok []
  | [d] => itemText d
  | d :: rest => do
    let first ← itemText d
    let others ← joinedWith sep rest
    return first ++ sep ++ others

def itemText : Datum → Attempt Text
  | undefined => .ok ""
  | null => .ok ""
  | bool true => .ok "true"
  | bool false => .ok "false"
  | number x => .ok (numberText x)
  | text s => .ok s
  | array items => joinedWith "," items
  | object fields =>
    if fields.any (·.1 == "toString") then .error noPrimitive else .ok objectText
  | derived fields parent =>
    if fields.any (·.1 == "toString") || parent.isNull then .error noPrimitive else toText parent
  | regex source flags => .ok ("/" ++ source ++ "/" ++ flags)
  | handler _ => .ok "[function]"
  | method => .ok "[function]"

end

/-! ### Properties -/

/-- The position that a key denotes: decimal digits without leading zeros. -/
def index? (key : Text) : Option Nat :=
  match key with
  | [.scalar '0'] => some 0
  | c :: cs =>
    if c != '0' && (c :: cs).all fun (d : CodePoint) => '0' ≤ d && d ≤ '9' then
      some ((c :: cs).foldl (fun n d => 10 * n + (d.toNat - '0'.toNat)) 0)
    else none
  | [] => none

def field? (key : Text) (fields : List (Text × Datum)) : Option Datum :=
  (fields.find? (·.1 == key)).map (·.2)

/-- A property that the datum has itself. A function has a name, which is empty, and takes one argument. -/
def own? (d : Datum) (key : Text) : Option Datum :=
  match d with
  | object fields => field? key fields
  | derived fields _ => field? key fields
  | array items =>
    if key == "length" then some (ofInt items.length) else (index? key).bind (items[·]?)
  | text s =>
    if key == "length" then some (ofInt (units s).length)
    else (index? key).bind fun i => ((units s)[i]?).map fun c => text [c]
  | regex _ _ => if key == "lastIndex" then some (number 0) else none
  | handler _ =>
    if key == "length" then some (number 1) else if key == "name" then some (text []) else none
  | _ => none

/-- A property of the datum, its own or one that it has from another, undefined if it has none. -/
def property (key : Text) : Datum → Datum
  | derived fields parent =>
    match field? key fields with
    | some d => d
    | none => property key parent
  | d => (d.own? key).getD undefined

/-- The fields with one set: in place if it is there, else at the end. -/
def setField (key : Text) (value : Datum) : List (Text × Datum) → List (Text × Datum)
  | [] => [(key, value)]
  | (k, v) :: rest => if k == key then (key, value) :: rest else (k, v) :: setField key value rest

/-- A property that cannot be set, because the datum has it from a function. -/
def readOnly (key : Text) : Datum → Bool
  | derived fields parent => (field? key fields).isNone && readOnly key parent
  | handler _ => key == "name" || key == "length"
  | method => key == "name" || key == "length"
  | _ => false

def withField (d : Datum) (key : Text) (value : Datum) : Datum :=
  match d with
  | object fields => object (setField key value fields)
  | derived fields parent => derived (setField key value fields) parent
  | d => d

def assign (d : Datum) (key : Text) (value : Datum) : Attempt Datum :=
  if d.readOnly key then
    .error (.typeError ("Cannot assign to read only property '" ++ key ++ "' of object '[object AsyncFunction]'"))
  else .ok (d.withField key value)

def isCollection : Datum → Bool
  | array _ => true
  | object _ => true
  | derived _ _ => true
  | regex _ _ => true
  | _ => false

/-- The field that does not stay a field but says from what an object has the rest. -/
def parentKey : Text := "__proto__"

/-- The object with the given fields, the last of each key. -/
def ofFields (fields : List (Text × Datum)) : Datum :=
  let all := fields.foldl (fun acc f => setField f.1 f.2 acc) []
  let others := all.filter (·.1 != parentKey)
  match field? parentKey all with
  | some parent =>
    if parent.isCollection || parent.isFunction || parent.isNull then derived others parent
    else object others
  | none => object others

/-- Two data are the same as keys of a map. Arrays and objects are never the same as others. -/
def sameKey : Datum → Datum → Bool
  | bool a, bool b => a == b
  | number x, number y => x == y
  | text s, text t => s == t
  | _, _ => false

end Datum

def Thrown.toText : Thrown → Attempt Text
  | .error kind message => .ok (if message.isEmpty then kind.name else kind.name ++ ": " ++ message)
  | .datum d => d.toText

end PluginKit.Registrar
