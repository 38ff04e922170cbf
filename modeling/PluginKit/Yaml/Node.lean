import PluginKit.Yaml.Tag
import PluginKit.Yaml.Token

/-!
# Nodes

The tokens of a document make a graph of nodes: scalars, sequences and mappings, each with its tag. An alias
is another way to the node with its anchor, so that a node can be met twice, and a collection can be met inside
itself. Nodes are known by their numbers. A text holds at most one document.
-/

namespace PluginKit.Yaml

/-- What a node holds; the parts of a collection are given by their numbers. -/
inductive Content where
  | scalar (text : Text)
  | sequence (items : List Nat)
  | mapping (entries : List (Nat × Nat))
  deriving DecidableEq, Repr

structure Node where
  tag : Tag
  content : Content
  deriving DecidableEq, Repr

instance : Inhabited Node := ⟨⟨.null, .scalar []⟩⟩

structure Document where
  nodes : Array Node
  root : Nat

namespace Node

/-- The state of making nodes: the tokens that are left, the nodes made so far and those with anchors. -/
structure Reader where
  scanner : Scanner
  nodes : Array Node
  anchors : List (Text × Nat)

abbrev Making (α : Type) := StateT Reader (Except Failure) α

def refuse {α : Type} (detail : String) : Making α :=
  throw (.malformed detail)

def peek : Making Token := do
  let r ← get
  let (t, s) ← r.scanner.peek
  set { r with scanner := s }
  return t

def skip : Making Unit :=
  modify fun r => { r with scanner := r.scanner.next }

def create (tag : Tag) (content : Content) : Making Nat := do
  let r ← get
  set { r with nodes := r.nodes.push ⟨tag, content⟩ }
  return r.nodes.size

def createEmpty : Making Nat :=
  create .null (.scalar [])

def fill (number : Nat) (content : Content) : Making Unit :=
  modify fun r => { r with nodes := r.nodes.modify number fun n => { n with content } }

def resolve (name : Text) : Making Nat := do
  match (← get).anchors.find? (·.1 == name) with
  | some (_, number) => return number
  | none => refuse "found undefined alias"

/-- A new node, under an anchor if it has one. An anchor is used once. -/
def createAnchored (anchor : Option Text) (tag : Tag) (content : Content) : Making Nat :=
  match anchor with
  | none => create tag content
  | some name => do
    if (← get).anchors.any (·.1 == name) then refuse "found duplicate anchor"
    else
      let number ← create tag content
      modify fun r => { r with anchors := (name, number) :: r.anchors }
      return number

/-- What stands before the content of a node: its anchor and its tag, in either order. -/
def properties : Making (Option Text × Option (Option Text × Text)) := do
  match ← peek with
  | .anchor a =>
    skip
    match ← peek with
    | .tag h s => skip; return (some a, some (h, s))
    | _ => return (some a, none)
  | .tag h s =>
    skip
    match ← peek with
    | .anchor a => skip; return (some a, some (h, s))
    | _ => return (none, some (h, s))
  | _ => return (none, none)

def fullTag (handles : List (Text × Text)) : Option (Option Text × Text) → Making (Option Text)
  | none => return none
  | some (none, suffix) => return some suffix
  | some (some handle, suffix) =>
    match handles.find? (·.1 == handle) with
    | some (_, start) => return some (start ++ suffix)
    | none => refuse "found undefined tag handle"

/-- The tag that leaves the meaning of a node to its form. -/
def formTag : Text := "!"

/-- The tag of a scalar. A plain scalar without a tag, and any scalar with the tag `!`, gets it from its
form. -/
def scalarTag (tag : Option Text) (plain : Bool) (text : Text) : Tag :=
  match tag with
  | none => if plain then Tag.ofPlain text else .str
  | some uri => if uri == formTag then Tag.ofPlain text else Tag.ofUri uri

def tagOr (default : Tag) (tag : Option Text) : Tag :=
  match tag with
  | none => default
  | some uri => if uri == formTag then default else Tag.ofUri uri

def endsBlockEntry : Token → Bool
  | .key | .value | .blockEnd => true
  | _ => false

def endsFlowEntry (close : Token) (t : Token) : Bool :=
  t = .flowEntry || t = close

def maxDepth : Nat := 480

mutual

/-- A node. In a block it can be a block collection, and where `indentless` is set, a sequence whose dashes
do not stand further right than the key before them. There is room for so many collections inside it. -/
def node (handles : List (Text × Text)) (block indentless : Bool) (room : Nat) : Nat → Making Nat
  | 0 => throw (.fault (.tooDeep []))
  | fuel + 1 => do
    match ← peek with
    | .alias name =>
      skip
      resolve name
    | _ =>
      let (anchor, tagToken) ← properties
      let tag ← fullTag handles tagToken
      let sequence (items : Making (List Nat)) : Making Nat := do
        let number ← createAnchored anchor (tagOr .seq tag) (.sequence [])
        if room = 0 then throw (.fault (.tooDeep []))
        fill number (.sequence (← items))
        return number
      let mapping (entries : Making (List (Nat × Nat))) : Making Nat := do
        let number ← createAnchored anchor (tagOr .map tag) (.mapping [])
        if room = 0 then throw (.fault (.tooDeep []))
        fill number (.mapping (← entries))
        return number
      match ← peek with
      | .scalar text plain =>
        skip
        createAnchored anchor (scalarTag tag plain text) (.scalar text)
      | .flowSequenceStart => sequence do
        skip
        flowItems handles true (room - 1) fuel
      | .flowMappingStart => mapping do
        skip
        flowEntries handles true (room - 1) fuel
      | t =>
        if t = .blockEntry && indentless then sequence (indentlessItems handles (room - 1) fuel)
        else if t = .blockSequenceStart && block then sequence do
          skip
          blockItems handles (room - 1) fuel
        else if t = .blockMappingStart && block then mapping do
          skip
          blockEntries handles (room - 1) fuel
        else if anchor.isSome || tag.isSome then createAnchored anchor (tagOr .null tag) (.scalar [])
        else refuse "expected the node content"
termination_by structural fuel => fuel

def blockItems (handles : List (Text × Text)) (room : Nat) : Nat → Making (List Nat)
  | 0 => throw (.fault (.tooDeep []))
  | fuel + 1 => do
    match ← peek with
    | .blockEntry =>
      skip
      let item ←
        match ← peek with
        | .blockEntry | .blockEnd => createEmpty
        | _ => node handles true false room fuel
      return item :: (← blockItems handles room fuel)
    | .blockEnd =>
      skip
      return []
    | _ => refuse "expected <block end>"
termination_by structural fuel => fuel

/-- The elements of a sequence that stands under a key without being indented. -/
def indentlessItems (handles : List (Text × Text)) (room : Nat) : Nat → Making (List Nat)
  | 0 => throw (.fault (.tooDeep []))
  | fuel + 1 => do
    match ← peek with
    | .blockEntry =>
      skip
      let t ← peek
      let item ←
        if t = .blockEntry || endsBlockEntry t then createEmpty else node handles true false room fuel
      return item :: (← indentlessItems handles room fuel)
    | _ => return []
termination_by structural fuel => fuel

def blockEntries (handles : List (Text × Text)) (room : Nat) : Nat → Making (List (Nat × Nat))
  | 0 => throw (.fault (.tooDeep []))
  | fuel + 1 => do
    match ← peek with
    | .key =>
      skip
      let k ← if endsBlockEntry (← peek) then createEmpty else node handles true true room fuel
      let v ← blockValue handles room fuel
      return (k, v) :: (← blockEntries handles room fuel)
    | .blockEnd =>
      skip
      return []
    | _ => refuse "expected <block end>"
termination_by structural fuel => fuel

def blockValue (handles : List (Text × Text)) (room : Nat) : Nat → Making Nat
  | 0 => throw (.fault (.tooDeep []))
  | fuel + 1 => do
    match ← peek with
    | .value =>
      skip
      if endsBlockEntry (← peek) then createEmpty else node handles true true room fuel
    | _ => createEmpty
termination_by structural fuel => fuel

/-- The elements of a sequence in brackets. A key among them makes a mapping of one entry. -/
def flowItems (handles : List (Text × Text)) (first : Bool) (room : Nat) : Nat → Making (List Nat)
  | 0 => throw (.fault (.tooDeep []))
  | fuel + 1 => do
    let t ← peek
    if t = .flowSequenceEnd then
      skip
      return []
    if !first then
      if t = .flowEntry then skip else refuse "expected ',' or ']'"
    match ← peek with
    | .flowSequenceEnd =>
      skip
      return []
    | .key =>
      let number ← create .map (.mapping [])
      if room = 0 then throw (.fault (.tooDeep []))
      let entry ← flowPair handles .flowSequenceEnd (room - 1) fuel
      fill number (.mapping [entry])
      return number :: (← flowItems handles false room fuel)
    | _ =>
      let item ← node handles false false room fuel
      return item :: (← flowItems handles false room fuel)
termination_by structural fuel => fuel

def flowEntries (handles : List (Text × Text)) (first : Bool) (room : Nat) :
    Nat → Making (List (Nat × Nat))
  | 0 => throw (.fault (.tooDeep []))
  | fuel + 1 => do
    let t ← peek
    if t = .flowMappingEnd then
      skip
      return []
    if !first then
      if t = .flowEntry then skip else refuse "expected ',' or a closing brace"
    match ← peek with
    | .flowMappingEnd =>
      skip
      return []
    | .key =>
      let entry ← flowPair handles .flowMappingEnd room fuel
      return entry :: (← flowEntries handles false room fuel)
    | _ =>
      let k ← node handles false false room fuel
      let _ ← peek
      let v ← createEmpty
      return (k, v) :: (← flowEntries handles false room fuel)
termination_by structural fuel => fuel

def flowPair (handles : List (Text × Text)) (close : Token) (room : Nat) : Nat → Making (Nat × Nat)
  | 0 => throw (.fault (.tooDeep []))
  | fuel + 1 => do
    skip
    let t ← peek
    let k ←
      if t = .value || endsFlowEntry close t then createEmpty else node handles false false room fuel
    if (← peek) = .value then
      skip
      let v ← if endsFlowEntry close (← peek) then createEmpty else node handles false false room fuel
      return (k, v)
    else return (k, ← createEmpty)
termination_by structural fuel => fuel

end

def defaultHandles : List (Text × Text) := [("!", "!"), ("!!", tagBase)]

/-- The directives before a document: the tag handles that they declare. -/
def directives (version : Bool) (handles : List (Text × Text)) : Nat → Making (List (Text × Text))
  | 0 => return handles
  | fuel + 1 => do
    match ← peek with
    | .directive (.version major _) =>
      skip
      if version then refuse "found duplicate YAML directive"
      else if major != 1 then refuse "found incompatible YAML document"
      else directives true handles fuel
    | .directive (.tagHandle handle start) =>
      skip
      if handles.any (·.1 == handle) then refuse "duplicate tag handle"
      else directives version (handles ++ [(handle, start)]) fuel
    | .directive .other =>
      skip
      directives version handles fuel
    | _ => return handles

def skipEnds : Nat → Making Unit
  | 0 => return
  | fuel + 1 => do
    match ← peek with
    | .documentEnd =>
      skip
      skipEnds fuel
    | _ => return

/-- The beginning of a document that says so, with its directives: the tag handles that it knows. -/
def documentStart (fuel : Nat) : Making (List (Text × Text)) := do
  let declared ← directives false [] fuel
  match ← peek with
  | .documentStart =>
    skip
    return declared ++ defaultHandles
  | _ => refuse "expected '<document start>'"

def rootNode? (fuel : Nat) : Making (Option Nat) := do
  let root ←
    match ← peek with
    | .streamEnd => return none
    | .directive _ | .documentStart =>
      let handles ← documentStart fuel
      match ← peek with
      | .directive _ | .documentStart | .documentEnd | .streamEnd => createEmpty
      | _ => node handles true false maxDepth fuel
    | _ => node defaultHandles true false maxDepth fuel
  skipEnds fuel
  if (← peek) = .streamEnd then return some root
  else
    let _ ← documentStart fuel
    refuse "expected a single document in the stream"

end Node

def Document.ofText? (text : Text) : Except Failure (Option Document) := do
  let scanner ← Scanner.ofText text
  let (root, reader) ← (Node.rootNode? (4 * scanner.cursor.bound)).run ⟨scanner, #[], []⟩
  return root.map fun root => ⟨reader.nodes, root⟩

end PluginKit.Yaml
