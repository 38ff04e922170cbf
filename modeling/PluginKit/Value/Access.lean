import PluginKit.Value.Fault

/-!
# Using values

Looking up keys and positions, going through elements, cutting and putting together. Each operation says
for every kind of value what it gives or which fault it ends with.
-/

namespace PluginKit.Value

def literal (v : Value) : Outcome Text :=
  match v.literal? with
  | some s => .ok s
  | none => .error (.badValue .unwritable)

def display (v : Value) : Outcome Text :=
  match v.display? with
  | some s => .ok s
  | none => .error (.badValue .unwritable)

/-- The entries of a dictionary; `member` is the name by which the caller asks for them. -/
def entriesFor (member : Text) (v : Value) : Outcome (List (Value × Value)) :=
  match v.view with
  | dict entries => .ok entries
  | v => .error (.noMember v.kind member)

def get (v : Value) (key : Text) (default : Value) : Outcome Value :=
  match v.view with
  | dict entries => .ok ((field? key entries).getD default)
  | _ => .error (.noMember v.kind "get")

def item (v : Value) (key : Text) : Outcome Value :=
  match v.view with
  | dict entries =>
    match field? key entries with
    | some w => .ok w
    | none => .error (.missingKey (str key))
  | str _ => .error (.misuse (.textIndex .str))
  | bytes _ => .error (.misuse (.textIndex .bytes))
  | list _ => .error (.misuse (.textIndex .list))
  | tuple _ => .error (.misuse (.textIndex .tuple))
  | _ => .error (.misuse (.notIndexable v.kind))

def element (place : Nat) (v : Value) : Outcome Value :=
  match v.view with
  | list items =>
    match items[place]? with
    | some x => .ok x
    | none => .error (.outOfRange "list ")
  | tuple items =>
    match items[place]? with
    | some x => .ok x
    | none => .error (.outOfRange "tuple ")
  | str s =>
    match s[place]? with
    | some c => .ok (str [c])
    | none => .error (.outOfRange "string ")
  | bytes b =>
    match b[place]? with
    | some n => .ok (int n.toNat)
    | none => .error (.outOfRange "")
  | dict entries =>
    match lookup? (int place) entries with
    | some w => .ok w
    | none => .error (.missingKey (int place))
  | v => .error (.misuse (.notIndexable v.kind))

/-- The elements of a value, if it has any to go through: characters, bytes, items or keys. -/
def elements? (v : Value) : Option (List Value) :=
  match v.view with
  | list items => some items
  | tuple items => some items
  | set items => some items
  | str s => some (s.map fun c => str [c])
  | bytes b => some (b.map fun n => int n.toNat)
  | dict entries => some (entries.map (·.1))
  | _ => none

def elements (v : Value) : Outcome (List Value) :=
  match v.elements? with
  | some items => .ok items
  | none => .error (.misuse (.notIterable v.kind))

def length (v : Value) : Outcome Nat :=
  match v.elements? with
  | some items => .ok items.length
  | none => .error (.misuse (.noLength v.kind))

def front (count : Nat) (v : Value) : Outcome Value :=
  match v.view with
  | list items => .ok (list (items.take count))
  | tuple items => .ok (tuple (items.take count))
  | str s => .ok (str ((s.take count)))
  | bytes b => .ok (bytes (b.take count))
  | dict _ => .error (.misuse .cutDictionary)
  | v => .error (.misuse (.notIndexable v.kind))

/-- Every element as a text; the first one that is none is a fault with its position. -/
def textsFrom (index : Nat) : List Value → Outcome (List Text)
  | [] => .ok []
  | str s :: rest => (textsFrom (index + 1) rest).map (s :: ·)
  | v :: _ => .error (.misuse (.joinElement index v.kind))

def joinTexts (sep : Text) (v : Value) : Outcome Text :=
  match v.elements? with
  | some items => (textsFrom 0 items).map (Text.join sep)
  | none => .error (.misuse .notJoinable)

def append (v w : Value) : Outcome Value :=
  match v.view, w.view with
  | list xs, list ys => .ok (list (xs ++ ys))
  | tuple xs, tuple ys => .ok (tuple (xs ++ ys))
  | str s, str t => .ok (str (s ++ t))
  | bytes a, bytes b => .ok (bytes (a ++ b))
  | v, w => .error (.misuse (.notAddable v.kind w.kind))

def text : Value → Outcome Text
  | str s => .ok s
  | bytes _ => .error (.misuse .bytesForText)
  | v => .error (.misuse (.notText v.kind))

def pairAt (index : Nat) (v : Value) : Outcome (Value × Value) :=
  match v.elements? with
  | none => .error (.misuse (.notPair index))
  | some [k, w] => if k.hashable then .ok (k, w) else .error (.misuse (.notKey k.kind))
  | some items => .error (.badValue (.pairLength index items.length))

def pairsFrom (index : Nat) : List Value → Outcome (List (Value × Value))
  | [] => .ok []
  | v :: rest => do
    let p ← pairAt index v
    return p :: (← pairsFrom (index + 1) rest)

/-- The entries that a value adds to a dictionary: those of a dictionary, or those of a list of pairs. -/
def asEntries (v : Value) : Outcome (List (Value × Value)) :=
  match v.view with
  | dict entries => .ok entries
  | v => do pairsFrom 0 (← v.elements)

def holds (key : Text) (v : Value) : Outcome Bool :=
  match v.view with
  | dict entries => .ok (field? key entries).isSome
  | list items => .ok (items.any (·.isStr key))
  | tuple items => .ok (items.any (·.isStr key))
  | set items => .ok (items.any (·.isStr key))
  | str s => .ok (Text.occursIn key s)
  | bytes _ => .error (.misuse .textForBytes)
  | v => .error (.misuse (.notContainer v.kind))

/-- A value is among the elements of another. In a text, this is a text that occurs in it. -/
def isIn (v w : Value) : Outcome Bool :=
  match w.view with
  | dict entries =>
    if v.hashable then .ok (lookup? v entries).isSome else .error (.misuse (.notKey v.kind))
  | set items =>
    if v.hashable then .ok (items.any (·.same v)) else .error (.misuse (.notKey v.kind))
  | list items => .ok (items.any (·.equal v))
  | tuple items => .ok (items.any (·.equal v))
  | str s =>
    match v with
    | str t => .ok (Text.occursIn t s)
    | _ => .error (.misuse .textNeeded)
  | bytes b =>
    match v with
    | int n =>
      if 0 ≤ n && n < 256 then .ok (b.any fun x => (x.toNat : Int) == n) else .error (.badValue .notByte)
    | bool c => .ok (b.any fun x => x.toNat == c.toNat)
    | bytes c => .ok (Text.occursIn c b)
    | _ => .error (.misuse .textForBytes)
  | w => .error (.misuse (.notContainer w.kind))

def unpack (count : Nat) (v : Value) : Outcome (List Value) :=
  match v.elements? with
  | none => .error (.misuse (.notUnpackable v.kind))
  | some items =>
    if items.length < count then .error (.badValue (.tooFew count items.length))
    else if count < items.length then .error (.badValue (.tooMany count))
    else .ok items

def isOne (v : Value) : Bool :=
  match v.number? with
  | some x => sameNumber x (.finite false 1 0)
  | none => false

/-- The dictionary with a key set; nothing else can be assigned to by a text key. -/
def setItem (v : Value) (key : Text) (value : Value) : Outcome Value :=
  match v.view with
  | dict entries => .ok (dict (insert (str key) value entries))
  | list _ => .error (.misuse (.textIndex .list))
  | v => .error (.misuse (.notAssignable v.kind))

end PluginKit.Value
