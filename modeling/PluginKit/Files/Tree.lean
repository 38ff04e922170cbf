import PluginKit.Files.Content
import PluginKit.Files.Path

/-!
# File trees

A tree says what is at each place, where a place is the list of parts that lead to it from the root. The root
itself is a directory. A path is followed from a directory part by part: every part but the last has to lead
to a directory, and a double dot leads back.
-/

namespace PluginKit.Files

structure Tree where
  entries : List (List Text × Entry)

inductive Obstacle where
  | missing
  | notDirectory
  | nameTooLong
  | null
  | nameless (e : Text.EncodeError)
  deriving DecidableEq, Repr

def Obstacle.fault (o : Obstacle) (p : Path) : Fault :=
  let path := quotedPath p.text
  match o with
  | missing => .file (.notFound path)
  | notDirectory => .file (.notDirectory path)
  | nameTooLong => .file (.nameTooLong path)
  | null => .badValue .nullInPath
  | nameless e => .encode e

def greatestName : Nat := 255

def greatestPath : Nat := 4095

/-- What keeps a path from being followed at all, whatever is there. -/
def pathObstacle? (p : Path) : Option Obstacle :=
  let s := p.text
  match firstNameless? 0 s with
  | some e => some (.nameless e)
  | none =>
    if s.contains '\x00' then some .null
    else if greatestPath < byteSize s then some .nameTooLong
    else none

namespace Tree

def empty : Tree := ⟨[]⟩

def find? (t : Tree) (place : List Text) : Option Entry :=
  if place.isEmpty then some .directory else (t.entries.find? (·.1 == place)).map (·.2)

/-- The entries with one set: in place if there is one already, else at the end. -/
def putIn (place : List Text) (e : Entry) : List (List Text × Entry) → List (List Text × Entry)
  | [] => [(place, e)]
  | (p, old) :: rest => if p == place then (p, e) :: rest else (p, old) :: putIn place e rest

def put (t : Tree) (place : List Text) (e : Entry) : Tree := ⟨putIn place e t.entries⟩

def prune (t : Tree) (place : List Text) : Tree :=
  ⟨t.entries.filter fun e => !place.isPrefixOf e.1⟩

def sortIn (x : List Text × Entry) : List (List Text × Entry) → List (List Text × Entry)
  | [] => [x]
  | y :: rest => if partsLe x.1 y.1 then x :: y :: rest else y :: sortIn x rest

/-- What is below a place: the parts that lead there from the place, in the order of the parts. -/
def below (t : Tree) (place : List Text) : List (List Text × Entry) :=
  ((t.entries.filter fun e => place.isPrefixOf e.1 && place.length < e.1.length).map fun e =>
    (e.1.drop place.length, e.2)).foldr sortIn []

def step (t : Tree) (place : List Text) (part : Text) : Except Obstacle (List Text) :=
  match t.find? place with
  | none => .error .missing
  | some (.file _) => .error .notDirectory
  | some .directory =>
    if greatestName < byteSize part then .error .nameTooLong
    else if part = Path.back then .ok place.dropLast
    else .ok (place ++ [part])

/-- Follows parts from a place. The place that is reached need not exist, but what leads to it does. -/
def follow (t : Tree) (place : List Text) : List Text → Except Obstacle (List Text)
  | [] => .ok place
  | part :: rest =>
    match t.step place part with
    | .error o => .error o
    | .ok next => t.follow next rest

def locate (t : Tree) (directory : List Text) (p : Path) : Except Obstacle (List Text) :=
  match pathObstacle? p with
  | some o => .error o
  | none => t.follow (if p.isAbsolute then [] else directory) p.parts

def putAll (t : Tree) (place : List Text) (entries : List (List Text × Entry)) : Tree :=
  entries.foldl (fun t e => t.put (place ++ e.1) e.2) t

def leadsInto (place : List Text) (entries : List (List Text × Entry)) (target : List Text) : Bool :=
  entries.any fun e => e.2.isDirectory && (place ++ e.1).isPrefixOf target

end Tree

end PluginKit.Files
