import PluginKit.Text.Number
import PluginKit.Value.Fault

/-!
# Places in a YAML text

A cursor stands before a character of a text and knows its offset, line and column. Reading past the end
gives a null character, which no YAML text contains. The module also names the character classes of the
YAML grammar and what can stop a reading.
-/

namespace PluginKit.Yaml

/-- What ends the reading of a YAML text: it is malformed, or a value in it has no meaning. -/
inductive Failure where
  | malformed (detail : Text)
  | fault (f : Fault)

structure Cursor where
  rest : Text
  index : Nat
  line : Nat
  column : Nat
  /-- More than the length of the whole text, a bound on the length of every loop over it. -/
  bound : Nat

/-- The null character, which stands for the end of the text. -/
def endMark : CodePoint := .scalar (Char.ofNat 0)

def isSpace (c : CodePoint) : Bool :=
  c == ' '

def isSpaceOrTab (c : CodePoint) : Bool :=
  c == ' ' || c == '\t'

def isBreak (c : CodePoint) : Bool :=
  c == '\r' || c == '\n' || c == '\x85' || c == '\u2028' || c == '\u2029'

def isBreakOrEnd (c : CodePoint) : Bool :=
  isBreak c || c == endMark

def isSpaceOrEnd (c : CodePoint) : Bool :=
  c == ' ' || isBreakOrEnd c

def isBlankOrEnd (c : CodePoint) : Bool :=
  c == '\t' || isSpaceOrEnd c

def isNameChar (c : CodePoint) : Bool :=
  ('0' ≤ c && c ≤ '9') || ('A' ≤ c && c ≤ 'Z') || ('a' ≤ c && c ≤ 'z') || c == '-' || c == '_'

def isAllowed (c : CodePoint) : Bool :=
  let n := c.toNat
  n == 9 || n == 10 || n == 13 || (0x20 ≤ n && n ≤ 0x7E) || n == 0x85 || (0xA0 ≤ n && n ≤ 0xD7FF) ||
    (0xE000 ≤ n && n ≤ 0xFFFD) || 0x10000 ≤ n

namespace Cursor

def start (text : Text) : Cursor :=
  ⟨text, 0, 0, 0, text.length + 2⟩

def peekAt (s : Cursor) (k : Nat) : CodePoint :=
  s.rest[k]?.getD endMark

def peek (s : Cursor) : CodePoint :=
  s.rest.head?.getD endMark

/-- The place after the next character. The two characters of a line end count as one, and a byte order
mark takes no column. -/
def step (s : Cursor) : Cursor :=
  match s.rest with
  | [] => s
  | c :: cs =>
    if (isBreak c && c != '\r') || (c == '\r' && cs.head? != some '\n') then
      { s with rest := cs, index := s.index + 1, line := s.line + 1, column := 0 }
    else if c == '\ufeff' then { s with rest := cs, index := s.index + 1 }
    else { s with rest := cs, index := s.index + 1, column := s.column + 1 }

def forward : Nat → Cursor → Cursor
  | 0, s => s
  | n + 1, s => forward n s.step

def count (s : Cursor) (p : CodePoint → Bool) : Nat :=
  (s.rest.takeWhile p).length

def ahead (s : Cursor) (n : Nat) : Text :=
  s.rest.take n

def skip (s : Cursor) (p : CodePoint → Bool) : Cursor :=
  s.forward (s.count p)

/-- The line end at this place, as it is kept in a text, and the place after it. -/
def lineBreak (s : Cursor) : Text × Cursor :=
  match s.rest with
  | .scalar '\r' :: .scalar '\n' :: _ => (['\n'], s.forward 2)
  | c :: _ =>
    if c == '\r' || c == '\n' || c == '\x85' then (['\n'], s.forward 1)
    else if c == '\u2028' || c == '\u2029' then ([c], s.forward 1)
    else ([], s)
  | [] => ([], s)

/-- A mark of three characters that separates documents stands here. -/
def atSeparator (s : Cursor) : Bool :=
  (s.ahead 3 == "---" || s.ahead 3 == "...") && isBlankOrEnd (s.peekAt 3)

def skipComment (s : Cursor) : Cursor :=
  let s := s.skip isSpace
  if s.peek == '#' then s.skip (!isBreakOrEnd ·) else s

end Cursor

end PluginKit.Yaml
