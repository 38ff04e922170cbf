import PluginKit.Text.Utf8

/-!
# Paths

A path is absolute or relative and has parts. Empty parts and single dots mean nothing and are dropped when a
path is read; double dots are kept, because what they mean depends on what is there.

Outside the program a path is a sequence of bytes, of which not all are UTF-8. The halves of surrogate pairs from
U+DC80 to U+DCFF stand for the bytes from 0x80 to 0xFF where those are no UTF-8; other halves stand for
nothing, and a path that holds one cannot be used.
-/

namespace PluginKit.Files

structure Path where
  /-- The slashes at the beginning of an absolute path; a relative path has none. -/
  root : Text
  parts : List Text
  deriving DecidableEq, Repr

namespace Path

/-- The slashes that a text begins with count as one, unless there are exactly two. -/
def rootOf (s : Text) : Text :=
  match s with
  | .scalar '/' :: .scalar '/' :: .scalar '/' :: _ => "/"
  | .scalar '/' :: .scalar '/' :: _ => "//"
  | .scalar '/' :: _ => "/"
  | _ => ""

def ofText (s : Text) : Path :=
  ⟨rootOf s, (Text.splitOn '/' s).filter fun part => !part.isEmpty && part != "."⟩

def absolute (parts : List Text) : Path := ⟨"/", parts⟩

def isAbsolute (p : Path) : Bool := !p.root.isEmpty

def text (p : Path) : Text :=
  if p.root.isEmpty && p.parts.isEmpty then "."
  else p.root ++ Text.join "/" p.parts

def name (p : Path) : Text := (p.parts.getLast?).getD ""

def parent (p : Path) : Path := ⟨p.root, p.parts.dropLast⟩

def join (p q : Path) : Path :=
  if q.isAbsolute then q else ⟨p.root, p.parts ++ q.parts⟩

def child (p : Path) (s : Text) : Path := p.join (ofText s)

/-- The place of the last dot in a name, if there is something before and after it. -/
def dotPlace? (name : Text) : Option Nat :=
  let after := (name.reverse.takeWhile fun (c : CodePoint) => c != '.').length
  if after = 0 || name.length ≤ after + 1 then none else some (name.length - after - 1)

def suffix (p : Path) : Text :=
  match dotPlace? p.name with
  | some n => p.name.drop n
  | none => ""

def stem (p : Path) : Text :=
  match dotPlace? p.name with
  | some n => p.name.take n
  | none => p.name

def back : Text := ".."

/-- The parts with every double dot taken together with the part before it. -/
def collapse (parts : List Text) : List Text :=
  parts.foldl (fun done part => if part = back then done.dropLast else done ++ [part]) []

/-- The parts of a path one further on, a double dot taken together with the part before it. At the beginning
of a relative path there is nothing before it, and it stays. -/
def advance (p : Path) (part : Text) : Path :=
  if part ≠ back then ⟨p.root, p.parts ++ [part]⟩
  else if p.parts.isEmpty && p.isAbsolute then p
  else if p.parts.isEmpty || p.name = back then ⟨p.root, p.parts ++ [back]⟩
  else p.parent

/-- The paths that lead to a path, one part after another. -/
def way (p : Path) : List Path :=
  go ⟨p.root, []⟩ p.parts
where
  go (reached : Path) : List Text → List Path
    | [] => []
    | part :: rest => reached.advance part :: go (reached.advance part) rest

def resolve (p : Path) (directory : List Text) : Path :=
  absolute (collapse (if p.isAbsolute then p.parts else directory ++ p.parts))

end Path

def standsForByte : CodePoint → Bool
  | .scalar _ => false
  | .surrogate half => 0x480 ≤ half.val && half.val < 0x500

/-- The first run of code points in a text that stand for no bytes. -/
def firstNameless? (position : Nat) : Text → Option Text.EncodeError
  | [] => none
  | c :: cs =>
    if c.isSurrogate && !standsForByte c then
      some ⟨c.toNat, position, (cs.takeWhile CodePoint.isSurrogate).length + 1⟩
    else firstNameless? (position + 1) cs

def byteSize (s : Text) : Nat :=
  s.foldl (fun size c =>
    match c with
    | .scalar c => size + c.utf8Size
    | .surrogate _ => size + 1) 0

/-- The order of part lists: by the first parts that differ. -/
def partsLe : List Text → List Text → Bool
  | [], _ => true
  | _ :: _, [] => false
  | a :: as, b :: bs => if a = b then partsLe as bs else decide (a < b)

end PluginKit.Files
