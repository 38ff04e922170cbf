import PluginKit.Text.Basic

/-!
# Checking source text

A light check of the source text of a module. It knows comments and quoted texts, brackets, and statements
that a block has to follow. It finds brackets that do not fit together, a colon right behind an opening
parenthesis, and blocks that are missing. It accepts some texts that a full parser would refuse.
-/

namespace PluginKit.Check

inductive SourceProblem where
  | nullBytes
  | invalid (line : Nat)
  | neverClosed (bracket : CodePoint) (line : Nat)
  | neverOpened (bracket : CodePoint) (line : Nat)
  /-- A statement on one line has no block on the line where it should begin. -/
  | blockExpected (statement : Text) (start line : Nat)
  deriving DecidableEq, Repr

def onLine (line : Nat) : Text := s!" (<unknown>, line {line})"

def SourceProblem.message : SourceProblem → Text
  | nullBytes => "source code string cannot contain null bytes"
  | invalid line => "invalid syntax" ++ onLine line
  | neverClosed bracket line => "'" ++ [bracket] ++ "' was never closed" ++ onLine line
  | neverOpened bracket line => "unmatched '" ++ [bracket] ++ "'" ++ onLine line
  | blockExpected statement start line =>
    "expected an indented block after " ++ statement ++ s!" on line {start}" ++ onLine line

def blockWords : List Text := ["if", "elif", "else", "while", "for", "try", "except", "finally", "with"]

/-- How a message names the statement that begins with a word, if a block has to follow it. -/
def blockStatement? (word : Text) : Option Text :=
  if word = "def" then some "function definition"
  else if word = "class" then some "class definition"
  else if blockWords.contains word then
    some ("'" ++ word ++ "' statement")
  else none

def isLetter : CodePoint → Bool
  | .scalar c => c.isAlpha
  | .surrogate _ => false

inductive Mode where
  | code
  | comment
  | quoted (quote : CodePoint)
  | escaped (quote : CodePoint)
  deriving DecidableEq, Repr

structure Scan where
  line : Nat
  mode : Mode
  /-- The open brackets with their lines, the innermost first. -/
  brackets : List (CodePoint × Nat)
  indent : Nat
  /-- The first word of the current statement, from its end. -/
  word : Text
  wordDone : Bool
  last : Option CodePoint
  /-- A statement that waits for its block: its name, its line and its indentation. -/
  header : Option (Text × Nat × Nat)
  problem : Option SourceProblem

def Scan.start : Scan := ⟨1, .code, [], 0, [], false, none, none, none⟩

def opening? : CodePoint → Option CodePoint
  | .scalar ')' => some '('
  | .scalar ']' => some '['
  | .scalar '\x7d' => some '\x7b'
  | _ => none

namespace Scan

def found (s : Scan) (p : SourceProblem) : Scan := { s with problem := s.problem.or (some p) }

/-- A statement begins: if a block is waited for, this has to be deeper. -/
def beginStatement (s : Scan) : Scan :=
  match s.header with
  | none => s
  | some (statement, line, indent) =>
    if indent < s.indent then { s with header := none }
    else s.found (.blockExpected statement line s.line)

/-- The line ends. Inside brackets the statement goes on; otherwise a colon at its end lets it wait for a
block. -/
def endLine (s : Scan) : Scan :=
  let s := { s with mode := .code }
  if s.brackets.isEmpty then
    let header :=
      if s.last = some ':' then
        match blockStatement? s.word.reverse with
        | some statement => some (statement, s.line, s.indent)
        | none => s.header
      else s.header
    { s with line := s.line + 1, indent := 0, word := [], wordDone := false, last := none, header := header }
  else { s with line := s.line + 1 }

def mark (s : Scan) (c : CodePoint) : Scan :=
  let s := if s.last.isNone then s.beginStatement else s
  let s := if s.last = some '(' && c = ':' then s.found (.invalid s.line) else s
  let s := if s.wordDone || !isLetter c then { s with wordDone := true } else { s with word := c :: s.word }
  { s with last := some c }

def nest (s : Scan) (c : CodePoint) : Scan :=
  if ("([\x7b" : Text).contains c then { s with brackets := (c, s.line) :: s.brackets }
  else if ("\x22\x27" : Text).contains c then { s with mode := .quoted c }
  else
    match opening? c with
    | none => s
    | some o =>
      match s.brackets with
      | (b, _) :: rest =>
        if b = o then { s with brackets := rest } else s.found (.neverOpened c s.line)
      | [] => s.found (.neverOpened c s.line)

def codeStep (s : Scan) (c : CodePoint) : Scan :=
  if c = '\n' then s.endLine
  else if c = ' ' || c = '\t' then
    if s.last.isNone then { s with indent := s.indent + 1 } else { s with wordDone := true }
  else if c = '#' then { s with mode := .comment }
  else (s.mark c).nest c

def step (s : Scan) (c : CodePoint) : Scan :=
  match s.mode with
  | .code => s.codeStep c
  | .comment => if c = '\n' then s.endLine else s
  | .quoted q =>
    if c = q then { s with mode := .code }
    else if c = '\\' then { s with mode := .escaped q }
    else if c = '\n' then { s with line := s.line + 1 }
    else s
  | .escaped q => { s with mode := .quoted q, line := if c = '\n' then s.line + 1 else s.line }

def finish (s : Scan) : Option SourceProblem :=
  match s.problem, s.brackets with
  | some p, _ => some p
  | none, (b, line) :: _ => some (.neverClosed b line)
  | none, [] =>
    let s := if s.last.isSome then s.endLine else s
    s.header.map fun h => .blockExpected h.1 h.2.1 (s.line - 1)

end Scan

def sourceProblem? (text : Text) : Option SourceProblem :=
  if text.contains '\x00' then some .nullBytes
  else (text.foldl Scan.step Scan.start).finish

end PluginKit.Check
