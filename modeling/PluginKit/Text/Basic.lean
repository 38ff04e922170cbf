import PluginKit.Text.CodePoint

/-!
# Cutting, joining and replacing

The operations on texts that the rest of the library is built from. They recurse on the text, so that a
statement about them is an induction on the text.
-/

namespace PluginKit.Text

/-- The text from the point where `skip` more characters have been passed, with every occurrence of `old`
replaced by `new`, from left to right and without overlap. -/
def replaceFrom (old new : Text) : Nat → Text → Text
  | _, [] => []
  | skip + 1, _ :: cs => replaceFrom old new skip cs
  | 0, c :: cs =>
    if old.isPrefixOf (c :: cs) then new ++ replaceFrom old new (old.length - 1) cs
    else c :: replaceFrom old new 0 cs

def replaceAll (old new s : Text) : Text :=
  replaceFrom old new 0 s

/-- The parts of a text between the occurrences of a separator. There is always at least one part. -/
def splitOn (sep : CodePoint) : Text → List Text
  | [] => [[]]
  | c :: cs =>
    if c = sep then [] :: splitOn sep cs
    else
      match splitOn sep cs with
      | [] => [[c]]
      | part :: parts => (c :: part) :: parts

/-- The maximal runs of characters that do not satisfy `isSep`. -/
def fields (isSep : CodePoint → Bool) : Text → List Text
  | [] => []
  | c :: cs =>
    if isSep c then fields isSep cs
    else
      match cs, fields isSep cs with
      | [], _ => [[c]]
      | d :: _, parts =>
        if isSep d then [c] :: parts
        else
          match parts with
          | [] => [[c]]
          | part :: rest => (c :: part) :: rest

def trim (p : CodePoint → Bool) (s : Text) : Text :=
  ((s.dropWhile p).reverse.dropWhile p).reverse

/-- Line ends as text files are read: a carriage return, alone or before a line feed, is one line feed. -/
def foldNewlines : Text → Text
  | [] => []
  | .scalar '\r' :: .scalar '\n' :: cs => '\n' :: foldNewlines cs
  | c :: cs => (if c = '\r' then '\n' else c) :: foldNewlines cs

def join (sep : Text) : List Text → Text
  | [] => ""
  | [s] => s
  | s :: rest => s ++ sep ++ join sep rest

def onlyIf (b : Bool) (s : Text) : Text :=
  if b then s else []

def times (n : Nat) (c : CodePoint) : Text :=
  List.replicate n c

def startsWith (start s : Text) : Bool :=
  start.isPrefixOf s

def endsWith (tail s : Text) : Bool :=
  tail.isSuffixOf s

def occursIn {α : Type} [BEq α] (part : List α) : List α → Bool
  | [] => part.isEmpty
  | c :: cs => part.isPrefixOf (c :: cs) || occursIn part cs

def padNat (width n : Nat) : Text :=
  let digits := Nat.toDigits 10 n
  (List.replicate (width - digits.length) '0' ++ digits).map .scalar

def hexNat (width n : Nat) : Text :=
  let digits := Nat.toDigits 16 n
  (List.replicate (width - digits.length) '0' ++ digits).map .scalar

def hexValue? (c : CodePoint) : Option Nat :=
  if '0' ≤ c && c ≤ '9' then some (c.toNat - '0'.toNat)
  else if 'a' ≤ c && c ≤ 'f' then some (c.toNat - 'a'.toNat + 10)
  else if 'A' ≤ c && c ≤ 'F' then some (c.toNat - 'A'.toNat + 10)
  else none

def hexNumber? (s : Text) : Option Nat :=
  s.foldlM (fun n c => (hexValue? c).map (16 * n + ·)) 0

end PluginKit.Text
