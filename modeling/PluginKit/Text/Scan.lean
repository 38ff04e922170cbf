import PluginKit.Text.Blank

/-!
# Scanning

A scanner reads something from the front of a text and gives what it read together with the rest, or refuses.
The scanners here never have a choice to take back: the first character that does not fit decides. `findAll`
collects what a scanner reads anywhere in a text, from left to right and without overlap, and `findFirst?`
the first of it.
-/

namespace PluginKit.Text

abbrev Scanner (α : Type) := Text → Option (α × Text)

def after (literal s : Text) : Option Text :=
  if literal.isPrefixOf s then some (s.drop literal.length) else none

def skipBlanks (s : Text) : Text :=
  s.dropWhile isBlank

def afterBlanks (literal s : Text) : Option Text :=
  after literal (skipBlanks s)

def takeRun (p : CodePoint → Bool) : Scanner Text := fun s =>
  let run := s.takeWhile p
  if run.isEmpty then none else some (run, s.drop run.length)

def takeChar (p : CodePoint → Bool) : Scanner CodePoint
  | [] => none
  | c :: s => if p c then some (c, s) else none

/-- Everything that the scanner reads in a text, from the point where `skip` more characters have been
passed. -/
def findAllFrom {α : Type} (scan : Scanner α) : Nat → Text → List α
  | _, [] => []
  | skip + 1, _ :: s => findAllFrom scan skip s
  | 0, c :: s =>
    match scan (c :: s) with
    | none => findAllFrom scan 0 s
    | some (a, rest) => a :: findAllFrom scan (s.length - rest.length) s

def findAll {α : Type} (scan : Scanner α) (s : Text) : List α :=
  findAllFrom scan 0 s

/-- What the scanner reads at the first place in a text where it does not refuse. -/
def findFirst? {α : Type} (scan : Scanner α) : Text → Option α
  | [] => none
  | c :: s =>
    match scan (c :: s) with
    | some (a, _) => some a
    | none => findFirst? scan s

end PluginKit.Text
