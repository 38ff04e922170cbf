import PluginKit.Text.Base64
import PluginKit.Yaml.Node

/-!
# From nodes to values

A node becomes a value according to its tag. A collection is made empty first and filled later: all nodes of
one level are looked at before any node of the next one, so of several failures the one nearest to the root is
reported, and of those on one level the first. A merge key adds the entries of other mappings in front of the
entries of its own mapping; this changes the mapping for everyone who meets it later. At the end the
collections, which know their parts by number, are written out as one value.
-/

namespace PluginKit.Yaml

/-! ### Scalars -/

def readInteger (base : Nat) (text : Text) : Except Failure Int :=
  match Text.readInt base text with
  | .number n => .ok n
  | .invalid => .error (.fault (.badValue (.notInteger base text)))
  | .tooLong n => .error (.fault (.badValue (.tooManyDigits n)))

def readDecimal (text : Text) : Except Failure Float :=
  match Text.readFloat? text with
  | some x => .ok x
  | none => .error (.fault (.badValue (.notDecimal text)))

/-- The sign of a scalar and the text after it; a scalar with no characters has none. -/
def signed (text : Text) : Except Failure (Bool × Text) :=
  match text with
  | [] => .error (.fault (.outOfRange "string "))
  | .scalar '-' :: cs => .ok (true, cs)
  | .scalar '+' :: cs => .ok (false, cs)
  | cs => .ok (false, cs)

def intValue (text : Text) : Except Failure Value := do
  let (negative, body) ← signed (text.filter (· != '_'))
  let n ←
    match body with
    | [] => throw (.fault (.outOfRange "string "))
    | [.scalar '0'] => pure 0
    | .scalar '0' :: .scalar 'b' :: cs => readInteger 2 cs
    | .scalar '0' :: .scalar 'x' :: cs => readInteger 16 cs
    | .scalar '0' :: _ => readInteger 8 body
    | _ =>
      if body.contains ':' then do
        let parts ← (Text.splitOn ':' body).mapM (readInteger 10)
        pure (parts.foldl (fun acc d => acc * 60 + d) 0)
      else readInteger 10 body
  return .int (if negative then -n else n)

def doubleOf (n : Nat) : Except Failure Float :=
  let x := Decimal.nearestFloat false n 1
  if x.isInf then .error (.fault (.tooLarge .double)) else .ok x

/-- The sum of digits of base sixty, the last one first. -/
def sixtiesSum : Nat → Float → List Float → Except Failure Float
  | _, total, [] => .ok total
  | base, total, d :: rest => do sixtiesSum (base * 60) (total + d * (← doubleOf base)) rest

/-- A number with a point, and whether it is the one not-a-number that has a name of its own. -/
def floatValue (text : Text) : Except Failure (Float × Bool) := do
  let (negative, body) ← signed (Text.lower (text.filter (· != '_')))
  let sign : Float := if negative then -1 else 1
  if body == ".inf" then return (sign * (1.0 / 0.0), false)
  else if body == ".nan" then return (0.0 / 0.0, true)
  else if body.contains ':' then
    let parts ← (Text.splitOn ':' body).mapM readDecimal
    return (sign * (← sixtiesSum 1 0 parts.reverse), false)
  else return (sign * (← readDecimal body), false)

def boolValue (text : Text) : Except Failure Value :=
  let word := Text.lower text
  if word == "yes" || word == "true" || word == "on" then .ok (.bool true)
  else if word == "no" || word == "false" || word == "off" then .ok (.bool false)
  else .error (.fault (.missingKey (.str word)))

def calendarFailure {α : Type} : Except CalendarError α → Except Failure α
  | .ok x => .ok x
  | .error e => .error (.fault (.badValue (.calendar e)))

def digitsNumber (digits : Text) : Nat :=
  (Text.digitsValue? 10 digits).getD 0

def zoneOffset : Zone → Except Failure (Option Int)
  | .none => .ok none
  | .utc => .ok (some 0)
  | .offset negative hours minutes =>
    let minutes : Int := digitsNumber hours * 60 + digitsNumber minutes
    let span := minutes * 60 * microsPerSecond
    let offset := if negative then -span else span
    if minutes ≥ 24 * 60 then calendarFailure (.error (.offset offset)) else .ok (some offset)

def stampValue (text : Text) : Except Failure Value := do
  let some stamp := (withoutLineEnd text).findSome? stamp?
    | throw (.fault (.noMember .null "groupdict"))
  let (year, month, day) := (digitsNumber stamp.year, digitsNumber stamp.month, digitsNumber stamp.day)
  match stamp.time with
  | none => return .date (← calendarFailure (Date.make year month day))
  | some (hour, minute, second, fraction, zone) =>
    let micro := digitsNumber ((fraction ++ Text.times 6 '0').take 6)
    let offset ← zoneOffset zone
    return .datetime (← calendarFailure (DateTime.make year month day (digitsNumber hour)
      (digitsNumber minute) (digitsNumber second) micro offset))

def binaryValue (text : Text) : Except Failure Value :=
  if text.all (·.toNat < 128) then
    match Text.decodeBase64? text with
    | some bytes => .ok (.bytes bytes)
    | none => .error (.malformed "failed to decode base64 data")
  else .error (.malformed "failed to convert base64 data into ascii")

/-! ### Collections in the making -/

/-- What a node has become: a value without parts, a not-a-number, which is the same as itself only, or a
collection, by its number. -/
inductive Piece where
  | leaf (v : Value)
  | nan (identity : Nat)
  | collection (number : Nat)

def Piece.same : Piece → Piece → Bool
  | leaf v, leaf w => v.same w
  | nan i, nan j => i == j
  | _, _ => false

inductive Collection where
  | list (items : List Piece)
  | pair (first second : Piece)
  | set (items : List Piece)
  | dict (entries : List (Piece × Piece))
  deriving Inhabited

inductive Shape where
  | list
  | pairs
  | set
  | dict
  deriving DecidableEq, Repr

/-- A collection that is to be filled: its number, the number of its node, and how. -/
structure Task where
  place : Nat
  node : Nat
  shape : Shape

def setEntry (key value : Piece) : List (Piece × Piece) → List (Piece × Piece)
  | [] => [(key, value)]
  | (k, v) :: rest => if k.same key then (k, value) :: rest else (k, v) :: setEntry key value rest

/-- The number by which a set finds a number: it and its equals modulo `2 ^ 61 - 1`, so that a power of two
counts by its exponent modulo 61. -/
def Piece.place? : Piece → Option Int
  | leaf v =>
    match v.number? with
    | some (.finite negative m q) =>
      let place : Int := (m * Nat.pow 2 (q % 61).toNat % (Nat.pow 2 61 - 1) : Nat)
      some (if negative then (if place = 1 then -2 else -place) else place)
    | _ => none
  | _ => none

/-- The number of slots of a set: eight for up to four elements, else the least power of two above twice
their number. -/
def slotCount (size : Nat) : Nat :=
  if size < 5 then 8 else Nat.pow 2 (Nat.log2 (2 * size) + 1)

/-- The elements of a set in its order: numbers by the remainder of their places, anything else as written. -/
def setOrder (items : List Piece) : List Piece :=
  match items.mapM Piece.place? with
  | none => items
  | some places =>
    let slots : Int := slotCount items.length
    let placed := (places.map (· % slots)).zip items
    (placed.mergeSort fun a b => decide (a.1 ≤ b.1)).map (·.2)

/-- The state of making values: the nodes, what they have become, the collections, and which of them are
still to be filled. -/
structure Loader where
  nodes : Array Node
  pieces : Array (Option Piece)
  collections : Array Collection
  waiting : List Task

abbrev Loading (α : Type) := StateT Loader (Except Failure) α

def nodeAt (number : Nat) : Loading Node :=
  return (← get).nodes[number]?.getD default

def entriesAt (number : Nat) : Loading (List (Nat × Nat)) := do
  match (← nodeAt number).content with
  | .mapping entries => return entries
  | _ => return []

def setEntries (number : Nat) (entries : List (Nat × Nat)) : Loading Unit :=
  modify fun s =>
    { s with nodes := s.nodes.modify number fun n => { n with content := .mapping entries } }

def setTag (number : Nat) (tag : Tag) : Loading Unit :=
  modify fun s => { s with nodes := s.nodes.modify number fun n => { n with tag } }

def maxIndirection : Nat := 960

/-- The text of a scalar; a mapping stands for the value under its default key. -/
def scalarText : Nat → Nat → Loading Text
  | 0, _ => throw (.fault (.tooDeep []))
  | fuel + 1, number => do
    match (← nodeAt number).content with
    | .scalar text => return text
    | .mapping entries =>
      match ← entries.findM? fun e => return (← nodeAt e.1).tag = .value with
      | some e => scalarText fuel e.2
      | none => throw (.malformed "expected a scalar node")
    | .sequence _ => throw (.malformed "expected a scalar node")

def addCollection (c : Collection) : Loading Nat := do
  let s ← get
  set { s with collections := s.collections.push c }
  return s.collections.size

def newCollection (number : Nat) (shape : Shape) : Loading Piece := do
  let place ← addCollection (.list [])
  modify fun s => { s with waiting := s.waiting ++ [⟨place, number, shape⟩] }
  return .collection place

def newPiece (number : Nat) : Loading Piece := do
  let scalar (f : Text → Except Failure Value) : Loading Piece := do
    return .leaf (← f (← scalarText maxIndirection number))
  let n ← nodeAt number
  match n.tag with
  | .null => scalar fun _ => .ok .null
  | .bool => scalar boolValue
  | .int => scalar intValue
  | .float =>
    let (x, named) ← floatValue (← scalarText maxIndirection number)
    return if named then .nan 0 else if x.isNaN then .nan (number + 1) else .leaf (.float x)
  | .str => scalar fun s => .ok (.str s)
  | .binary => scalar binaryValue
  | .timestamp => scalar fun _ =>
    match n.content with
    | .scalar text => stampValue text
    | _ => .error (.fault (.misuse (.notText .list)))
  | .seq => newCollection number .list
  | .map => newCollection number .dict
  | .set => newCollection number .set
  | .omap => newCollection number .pairs
  | .pairs => newCollection number .pairs
  | _ => throw (.malformed "could not determine a constructor for the tag")

/-- What a node becomes. Who meets the node again gets the same. -/
def pieceOf (number : Nat) : Loading Piece := do
  match ((← get).pieces[number]?).join with
  | some p => return p
  | none =>
    let p ← newPiece number
    modify fun s => { s with pieces := s.pieces.setIfInBounds number (some p) }
    return p

/-! ### Merging -/

def maxMergeSteps : Nat := Nat.pow 10 12

mutual

/-- Puts the entries of merged mappings in front of those of a mapping, from the entry at `index` on; `merged`
are the entries gathered so far. A default key becomes an ordinary one. -/
def mergeFrom : Nat → Nat → Nat → List (Nat × Nat) → Loading Unit
  | 0, _, _, _ => throw (.fault (.tooDeep []))
  | fuel + 1, number, index, merged => do
    let entries ← entriesAt number
    match entries[index]? with
    | none => if merged.isEmpty then return else setEntries number (merged ++ entries)
    | some (key, value) =>
      let tag := (← nodeAt key).tag
      if tag = .merge then
        setEntries number (entries.eraseIdx index)
        match (← nodeAt value).content with
        | .mapping _ =>
          mergeFrom fuel value 0 []
          mergeFrom fuel number index (merged ++ (← entriesAt value))
        | .sequence items =>
          let parts ← mergeItems fuel items
          mergeFrom fuel number index (merged ++ parts.reverse.flatten)
        | .scalar _ => throw (.malformed "expected a mapping or list of mappings for merging")
      else
        if tag = .value then setTag key .str
        mergeFrom fuel number (index + 1) merged
termination_by structural fuel => fuel

def mergeItems : Nat → List Nat → Loading (List (List (Nat × Nat)))
  | 0, _ => throw (.fault (.tooDeep []))
  | _, [] => return []
  | fuel + 1, n :: rest => do
    match (← nodeAt n).content with
    | .mapping _ =>
      mergeFrom fuel n 0 []
      let entries ← entriesAt n
      return entries :: (← mergeItems fuel rest)
    | _ => throw (.malformed "expected a mapping for merging")
termination_by structural fuel => fuel

end

/-! ### Filling collections -/

def readEntries (entries : List (Piece × Piece)) : List (Nat × Nat) → Loading (List (Piece × Piece))
  | [] => return entries
  | (k, v) :: rest => do
    let key ← pieceOf k
    if let .collection _ := key then throw (.malformed "found unhashable key")
    let value ← pieceOf v
    readEntries (setEntry key value entries) rest

def readMapping (number : Nat) : Loading (List (Piece × Piece)) := do
  match (← nodeAt number).content with
  | .mapping _ =>
    mergeFrom maxMergeSteps number 0 []
    readEntries [] (← entriesAt number)
  | _ => throw (.malformed "expected a mapping node")

def readPairs : List Nat → Loading (List Piece)
  | [] => return []
  | n :: rest => do
    match (← nodeAt n).content with
    | .mapping [(k, v)] =>
      let key ← pieceOf k
      let value ← pieceOf v
      let place ← addCollection (.pair key value)
      return .collection place :: (← readPairs rest)
    | _ => throw (.malformed "expected a mapping of length 1")

def sequenceAt (number : Nat) : Loading (List Nat) := do
  match (← nodeAt number).content with
  | .sequence items => return items
  | _ => throw (.malformed "expected a sequence node")

def fillCollection (task : Task) : Loading Unit := do
  let filled ←
    match task.shape with
    | .list => do pure (.list (← (← sequenceAt task.node).mapM pieceOf))
    | .pairs => do pure (.list (← readPairs (← sequenceAt task.node)))
    | .set => do pure (.set (setOrder ((← readMapping task.node).map (·.1))))
    | .dict => do pure (.dict (← readMapping task.node))
  modify fun s => { s with collections := s.collections.setIfInBounds task.place filled }

/-- Fills the collections that wait, then those that wait because of them, and so on. -/
def fillAll : Nat → Loading Unit
  | 0 => return
  | fuel + 1 => do
    let waiting := (← get).waiting
    if waiting.isEmpty then return
    modify fun s => { s with waiting := [] }
    waiting.forM fillCollection
    fillAll fuel

/-! ### Writing out -/

/-- The value of a piece inside the collections on the path, and which of these it leads back to. Values that
lead nowhere back are kept, so that a collection that is met often is written out once. -/
def writeOut (collections : Array Collection) :
    Nat → List Nat → Piece → StateM (Array (Option Value)) (Value × List Nat)
  | _, _, .leaf v => return (v, [])
  | _, _, .nan _ => return (.float (0.0 / 0.0), [])
  | 0, _, .collection n => return (.again n, [n])
  | fuel + 1, path, .collection n => do
    if path.contains n then return (.again n, [n])
    else if let some (some v) := (← get)[n]? then return (v, [])
    else
      let part := writeOut collections fuel (n :: path)
      let pair (e : Piece × Piece) : StateM (Array (Option Value)) ((Value × Value) × List Nat) := do
        let (k, ks) ← part e.1
        let (v, vs) ← part e.2
        return ((k, v), ks ++ vs)
      let (body, back) ←
        match collections[n]?.getD default with
        | .list items => do
          let parts ← items.mapM part
          pure (Value.list (parts.map (·.1)), parts.flatMap (·.2))
        | .set items => do
          let parts ← items.mapM part
          pure (Value.set (parts.map (·.1)), parts.flatMap (·.2))
        | .dict entries => do
          let parts ← entries.mapM pair
          pure (Value.dict (parts.map (·.1)), parts.flatMap (·.2))
        | .pair first second => do
          let (p, back) ← pair (first, second)
          pure (Value.tuple [p.1, p.2], back)
      if back.isEmpty then
        modify fun kept => kept.setIfInBounds n (some body)
        return (body, [])
      else return (.loop n body, back.eraseDups.filter (· != n))

def Document.value (d : Document) : Except Failure Value := do
  let size := d.nodes.size
  let action : Loading Piece := do
    let root ← pieceOf d.root
    fillAll (size + 1)
    return root
  let (root, s) ← action.run ⟨d.nodes, Array.replicate size none, #[], []⟩
  let count := s.collections.size
  return (writeOut s.collections (count + 1) [] root).run (Array.replicate count none) |>.1.1

/-- The value of a YAML text; a text without a document is null. -/
def load (text : Text) : Except Failure Value := do
  match ← Document.ofText? text with
  | none => return .null
  | some d => d.value

end PluginKit.Yaml
