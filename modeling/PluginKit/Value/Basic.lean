import PluginKit.Calendar
import PluginKit.Decimal.Binary64

/-!
# Values

What a script, a manifest or a host hands over is a value of one of a few kinds, not known beforehand. A
dictionary keeps the order in which its keys were first written; a key can be any value that does not
itself hold a list or a dictionary.

A script can make a collection that holds itself, by an alias inside the collection that it names. Such a
collection is a `loop` with a mark of its own, and inside it `again` with that mark stands for the whole. Who
looks into a value goes through `view`, which puts the whole in the place of its marks, one level at a time.
-/

namespace PluginKit

/-- A value whose kind is only known when the program runs. -/
inductive Value where
  | null
  | bool (b : Bool)
  | int (n : Int)
  | float (x : Float)
  | str (s : Text)
  | bytes (b : List UInt8)
  | date (d : Date)
  | datetime (t : DateTime)
  | list (items : List Value)
  | tuple (items : List Value)
  | set (items : List Value)
  | dict (entries : List (Value × Value))
  | loop (mark : Nat) (body : Value)
  | again (mark : Nat)
  deriving Inhabited

inductive Kind where
  | null
  | bool
  | int
  | float
  | str
  | bytes
  | date
  | datetime
  | list
  | tuple
  | set
  | dict
  deriving DecidableEq, Repr

namespace Kind

def name : Kind → Text
  | null => "NoneType"
  | bool => "bool"
  | int => "int"
  | float => "float"
  | str => "str"
  | bytes => "bytes"
  | date => "datetime.date"
  | datetime => "datetime.datetime"
  | list => "list"
  | tuple => "tuple"
  | set => "set"
  | dict => "dict"

def shortName : Kind → Text
  | date => "date"
  | datetime => "datetime"
  | k => k.name

end Kind

namespace Value

def kind : Value → Kind
  | null => .null
  | bool _ => .bool
  | int _ => .int
  | float _ => .float
  | str _ => .str
  | bytes _ => .bytes
  | date _ => .date
  | datetime _ => .datetime
  | list _ => .list
  | tuple _ => .tuple
  | set _ => .set
  | dict _ => .dict
  | loop _ body => body.kind
  | again _ => .null

/-- A value counts as present: it is neither null nor false nor zero nor empty. -/
def truthy : Value → Bool
  | null => false
  | bool b => b
  | int n => n != 0
  | float x => x != 0
  | str s => !s.isEmpty
  | bytes b => !b.isEmpty
  | date _ => true
  | datetime _ => true
  | list items => !items.isEmpty
  | tuple items => !items.isEmpty
  | set items => !items.isEmpty
  | dict entries => !entries.isEmpty
  | loop _ body => body.truthy
  | again _ => false

mutual

def close (mark : Nat) (whole : Value) : Value → Value
  | list items => list (closeAll mark whole items)
  | tuple items => tuple (closeAll mark whole items)
  | set items => set (closeAll mark whole items)
  | dict entries => dict (closeEntries mark whole entries)
  | loop m body => if m = mark then loop m body else loop m (close mark whole body)
  | again m => if m = mark then whole else again m
  | v => v

/-- Several values with a loop in the place of its mark. -/
def closeAll (mark : Nat) (whole : Value) : List Value → List Value
  | [] => []
  | v :: rest => close mark whole v :: closeAll mark whole rest

def closeEntries (mark : Nat) (whole : Value) : List (Value × Value) → List (Value × Value)
  | [] => []
  | (k, v) :: rest => (close mark whole k, close mark whole v) :: closeEntries mark whole rest

end

/-- A value to look into: of a loop its collection, with the loop itself in the place of its mark. -/
def view : Value → Value
  | loop mark body => close mark (loop mark body) body
  | v => v

def isStr (s : Text) : Value → Bool
  | str t => s == t
  | _ => false

/-- The number that a value stands for, if it is one; truth values count as one and zero. -/
def number? : Value → Option Decimal.Binary64
  | bool b => some (.finite false b.toNat 0)
  | int n => some (.finite (decide (n < 0)) n.natAbs 0)
  | float x => some (Decimal.Binary64.ofFloat x)
  | _ => none

def sameNumber : Decimal.Binary64 → Decimal.Binary64 → Bool
  | .finite s m q, .finite t n r =>
    (m == 0 && n == 0) ||
      (s == t && m * Nat.pow 2 (q - r).toNat == n * Nat.pow 2 (r - q).toNat)
  | .infinite s, .infinite t => s == t
  | _, _ => false

mutual

def same : Value → Value → Bool
  | null, null => true
  | str s, str t => s == t
  | bytes a, bytes b => a == b
  | date a, date b => a == b
  | datetime a, datetime b => a.same b
  | tuple xs, tuple ys => sameAll xs ys
  | v, w =>
    match v.number?, w.number? with
    | some a, some b => sameNumber a b
    | _, _ => false

def sameAll : List Value → List Value → Bool
  | [], [] => true
  | x :: xs, y :: ys => same x y && sameAll xs ys
  | _, _ => false

end

mutual

/-- Two values are equal: as keys, or with equal elements, or with equal values under the same keys. -/
def equal : Value → Value → Bool
  | list xs, list ys => equalAll xs ys
  | tuple xs, tuple ys => equalAll xs ys
  | set xs, set ys => xs.length == ys.length && xs.all fun x => ys.any (same x)
  | dict es, dict fs => es.length == fs.length && equalEntries es fs
  | loop m _, loop n _ => m == n
  | v, w => same v w

def equalAll : List Value → List Value → Bool
  | [], [] => true
  | x :: xs, y :: ys => equal x y && equalAll xs ys
  | _, _ => false

def equalEntries : List (Value × Value) → List (Value × Value) → Bool
  | [], _ => true
  | (k, v) :: es, fs =>
    match fs.find? fun e => e.1.same k with
    | some e => equal v e.2 && equalEntries es fs
    | none => false

end

mutual

def hashable : Value → Bool
  | list _ => false
  | set _ => false
  | dict _ => false
  | loop _ body => hashable body
  | tuple items => allHashable items
  | _ => true

def allHashable : List Value → Bool
  | [] => true
  | x :: xs => hashable x && allHashable xs

end

def lookup? (key : Value) (entries : List (Value × Value)) : Option Value :=
  (entries.find? fun e => e.1.same key).map (·.2)

def field? (key : Text) (entries : List (Value × Value)) : Option Value :=
  (entries.find? fun e => e.1.isStr key).map (·.2)

/-- The entries with a key set to a value: in place if the key is there, else at the end. -/
def insert (key value : Value) : List (Value × Value) → List (Value × Value)
  | [] => [(key, value)]
  | (k, v) :: rest => if k.same key then (k, value) :: rest else (k, v) :: insert key value rest

def insertAll (entries new : List (Value × Value)) : List (Value × Value) :=
  new.foldl (fun acc e => insert e.1 e.2 acc) entries

def record (fields : List (String × Value)) : Value :=
  dict (fields.map fun f => (str f.1, f.2))

end Value

end PluginKit
