import PluginKit.Yaml.Cursor

/-!
# Scalars

The five ways to write a scalar: plain, in single quotes, in double quotes, literal and folded. Each reader
starts at the first character of the scalar and gives its text and the place after it.
-/

namespace PluginKit.Yaml

/-! ### Plain scalars -/

/-- The length of the next word of a plain scalar. In a flow collection it also ends at the characters that
structure the collection. -/
def plainLength (flow : Bool) : Text → Nat
  | [] => 0
  | c :: cs =>
    let next := cs.head?.getD endMark
    if isBlankOrEnd c then 0
    else if c == ':' && (isBlankOrEnd next || (flow && (",[]\x7b\x7d" : Text).contains next)) then 0
    else if flow && (",?[]\x7b\x7d" : Text).contains c then 0
    else plainLength flow cs + 1

/-- The line ends between two words of a plain scalar. None if a document separator follows one of
them. -/
def plainBreaks : Nat → Cursor → Option Text × Cursor
  | 0, s => (some [], s)
  | fuel + 1, s =>
    if s.peek == ' ' then plainBreaks fuel (s.forward 1)
    else if isBreak s.peek then
      let (lineEnd, t) := s.lineBreak
      if t.atSeparator then (none, t)
      else
        match plainBreaks fuel t with
        | (some more, u) => (some (lineEnd ++ more), u)
        | (none, u) => (none, u)
    else (some [], s)

/-- What a line end inside a scalar becomes: a space, or nothing where blank lines follow it. A line end of
the rarer kinds stays. -/
def foldedLine (lineEnd breaks : Text) : Text :=
  if lineEnd != "\n" then lineEnd else if breaks.isEmpty then " " else ""

/-- What stands between two words of a plain scalar: the folded text, the place after it, and whether a
line end was passed. The text is empty where the scalar cannot go on. -/
def plainSpaces (s : Cursor) : Text × Cursor × Bool :=
  let spaces := s.rest.takeWhile isSpace
  let t := s.forward spaces.length
  if isBreak t.peek then
    let (lineEnd, u) := t.lineBreak
    if u.atSeparator then ([], u, true)
    else
      match plainBreaks u.bound u with
      | (none, w) => ([], w, true)
      | (some breaks, w) =>
        let folded := foldedLine lineEnd breaks
        (folded ++ breaks, w, true)
  else (spaces, t, false)

/-- The words of a plain scalar from this place on, after the spaces in front of them. The last component
says whether the scalar ended behind a line end. -/
def plainWords (flow : Bool) (indent : Int) : Nat → Text → Bool → Cursor → Text × Cursor × Bool
  | 0, _, broken, s => ([], s, broken)
  | fuel + 1, spaces, broken, s =>
    if s.peek == '#' then ([], s, broken)
    else
      let length := plainLength flow s.rest
      if length = 0 then ([], s, broken)
      else
        let word := s.ahead length
        let (more, t, newline) := plainSpaces (s.forward length)
        if more.isEmpty || t.peek == '#' || (!flow && (t.column : Int) < indent) then
          (spaces ++ word, t, newline)
        else
          let (rest, u, last) := plainWords flow indent fuel more newline t
          (spaces ++ word ++ rest, u, last)

/-! ### Quoted scalars -/

def escape? (c : CodePoint) : Option CodePoint :=
  match c with
  | .scalar '0' => some endMark
  | .scalar 'a' => some '\x07'
  | .scalar 'b' => some '\x08'
  | .scalar 't' => some '\t'
  | .scalar '\t' => some '\t'
  | .scalar 'n' => some '\n'
  | .scalar 'v' => some '\x0b'
  | .scalar 'f' => some '\x0c'
  | .scalar 'r' => some '\r'
  | .scalar 'e' => some '\x1b'
  | .scalar ' ' => some ' '
  | .scalar '"' => some '"'
  | .scalar '\\' => some '\\'
  | .scalar '/' => some '/'
  | .scalar 'N' => some '\x85'
  | .scalar '_' => some '\xa0'
  | .scalar 'L' => some '\u2028'
  | .scalar 'P' => some '\u2029'
  | _ => none

def codeLength? (c : CodePoint) : Option Nat :=
  if c == 'x' then some 2 else if c == 'u' then some 4 else if c == 'U' then some 8 else none

def charOfCode (n : Nat) : Except Failure CodePoint :=
  if n < 0x110000 then .ok (CodePoint.ofNat n)
  else if n < 0x80000000 then .error (.fault (.badValue .notCharacter))
  else .error (.fault (.tooLarge .code))

def quotedBreaks : Nat → Cursor → Except Failure (Text × Cursor)
  | 0, s => .ok ([], s)
  | fuel + 1, s =>
    if s.atSeparator then .error (.malformed "found unexpected document separator")
    else
      let t := s.skip isSpaceOrTab
      if isBreak t.peek then do
        let (lineEnd, u) := t.lineBreak
        let (more, w) ← quotedBreaks fuel u
        return (lineEnd ++ more, w)
      else .ok ([], t)

def quotedSpaces (s : Cursor) : Except Failure (Text × Cursor) :=
  let blanks := s.rest.takeWhile isSpaceOrTab
  let t := s.forward blanks.length
  if t.peek == endMark then .error (.malformed "found unexpected end of stream")
  else if isBreak t.peek then do
    let (lineEnd, u) := t.lineBreak
    let (breaks, w) ← quotedBreaks u.bound u
    let folded := foldedLine lineEnd breaks
    return (folded ++ breaks, w)
  else .ok (blanks, t)

def isQuotedPlain (c : CodePoint) : Bool :=
  !(c == '\'' || c == '"' || c == '\\' || isBlankOrEnd c)

/-- The part of a quoted scalar up to the next blank or to its end. -/
def quotedWord (double : Bool) : Nat → Cursor → Except Failure (Text × Cursor)
  | 0, s => .ok ([], s)
  | fuel + 1, s =>
    let go (text : Text) (t : Cursor) : Except Failure (Text × Cursor) := do
      let (more, u) ← quotedWord double fuel t
      return (text ++ more, u)
    let plain := s.rest.takeWhile isQuotedPlain
    if !plain.isEmpty then go plain (s.forward plain.length)
    else
      let c := s.peek
      if !double && c == '\'' && s.peekAt 1 == '\'' then go ['\''] (s.forward 2)
      else if (double && c == '\'') || (!double && (c == '"' || c == '\\')) then go [c] (s.forward 1)
      else if double && c == '\\' then
        let t := s.forward 1
        let e := t.peek
        match escape? e, codeLength? e with
        | some d, _ => go [d] (t.forward 1)
        | none, some length =>
          let u := t.forward 1
          let digits := u.ahead length
          match (if digits.length = length then Text.hexNumber? digits else none) with
          | some n => do
            let d ← charOfCode n
            go [d] (u.forward length)
          | none => .error (.malformed "expected escape sequence of hexadecimal numbers")
        | none, none =>
          if isBreak e then do
            let (_, u) := t.lineBreak
            let (breaks, w) ← quotedBreaks u.bound u
            go breaks w
          else .error (.malformed "found unknown escape character")
      else .ok ([], s)

def quotedRest (double : Bool) : Nat → Cursor → Except Failure (Text × Cursor)
  | 0, s => .ok ([], s)
  | fuel + 1, s => do
    let (word, t) ← quotedWord double (2 * s.bound) s
    if t.peek == (if double then '"' else '\'') then return (word, t.forward 1)
    else
      let (spaces, u) ← quotedSpaces t
      let (more, w) ← quotedRest double fuel u
      return (word ++ spaces ++ more, w)

def quotedScalar (double : Bool) (s : Cursor) : Except Failure (Text × Cursor) :=
  quotedRest double s.bound (s.forward 1)

/-! ### Literal and folded scalars -/

/-- What becomes of the line ends at the end of a literal or folded scalar. -/
inductive Chomping where
  | strip
  | clip
  | keep
  deriving DecidableEq, Repr

def chomping? (c : CodePoint) : Option Chomping :=
  if c == '+' then some .keep else if c == '-' then some .strip else none

def increment? (c : CodePoint) : Except Failure (Option Nat) :=
  if c == '0' then .error (.malformed "expected indentation indicator in the range 1-9, but found 0")
  else .ok (if '1' ≤ c && c ≤ '9' then some (c.toNat - '0'.toNat) else none)

/-- The signs after the first character of a literal or folded scalar, in either order. -/
def blockHeader (s : Cursor) : Except Failure (Chomping × Option Nat × Cursor) := do
  let (chomp, increment, t) ←
    match chomping? s.peek with
    | some chomp => do
      let t := s.forward 1
      match ← increment? t.peek with
      | some n => pure (chomp, some n, t.forward 1)
      | none => pure (chomp, none, t)
    | none => do
      match ← increment? s.peek with
      | some n =>
        let t := s.forward 1
        match chomping? t.peek with
        | some chomp => pure (chomp, some n, t.forward 1)
        | none => pure (.clip, some n, t)
      | none => pure (.clip, none, s)
  if !isSpaceOrEnd t.peek then throw (.malformed "expected chomping or indentation indicators")
  let u := t.skipComment
  if !isBreakOrEnd u.peek then throw (.malformed "expected a comment or a line break")
  return (chomp, increment, u.lineBreak.2)

/-- The leading blank lines of a block scalar whose indentation is not given: the line ends, the greatest
column reached, and the place after them. -/
def blockIndentation : Nat → Nat → Cursor → Text × Nat × Cursor
  | 0, most, s => ([], most, s)
  | fuel + 1, most, s =>
    if s.peek == ' ' then
      let t := s.forward 1
      blockIndentation fuel (max most t.column) t
    else if isBreak s.peek then
      let (lineEnd, t) := s.lineBreak
      let (more, m, u) := blockIndentation fuel most t
      (lineEnd ++ more, m, u)
    else ([], most, s)

def indentTo (column : Nat) (s : Cursor) : Cursor :=
  s.forward (min (s.count isSpace) (column - s.column))

def blockBreaks (indent : Nat) : Nat → Cursor → Text × Cursor
  | 0, s => ([], s)
  | fuel + 1, s =>
    let t := indentTo indent s
    if isBreak t.peek then
      let (lineEnd, u) := t.lineBreak
      let (more, w) := blockBreaks indent fuel u
      (lineEnd ++ more, w)
    else ([], t)

/-- The lines of a block scalar. `breaks` are the blank lines in front of the next line. Gives the text
up to the end of the last line, its line end, the blank lines after it, and the place after them. -/
def blockLines (folded : Bool) (indent : Nat) :
    Nat → Text → Cursor → Text × Text × Text × Cursor
  | 0, breaks, s => ([], [], breaks, s)
  | fuel + 1, breaks, s =>
    if s.column = indent && s.peek != endMark then
      let leading := s.peek != ' ' && s.peek != '\t'
      let line := s.rest.takeWhile (!isBreakOrEnd ·)
      let (lineEnd, t) := (s.forward line.length).lineBreak
      let (after, u) := blockBreaks indent t.bound t
      if u.column = indent && u.peek != endMark then
        let joint : Text :=
          if folded && lineEnd == "\n" && leading && u.peek != ' ' && u.peek != '\t' then
            if after.isEmpty then " " else ""
          else lineEnd
        let (text, last, tail, w) := blockLines folded indent fuel after u
        (breaks ++ line ++ joint ++ text, last, tail, w)
      else (breaks ++ line, lineEnd, after, u)
    else ([], [], breaks, s)

/-- A literal or folded scalar whose first character is the next one, inside a collection with the given
indentation. -/
def blockScalar (folded : Bool) (parent : Int) (s : Cursor) : Except Failure (Text × Cursor) := do
  let (chomp, increment, t) ← blockHeader (s.forward 1)
  let least := (max (parent + 1) 1).toNat
  let (indent, breaks, u) := match increment with
    | none =>
      let (breaks, most, u) := blockIndentation t.bound 0 t
      (max least most, breaks, u)
    | some n =>
      let indent := least + n - 1
      let (breaks, u) := blockBreaks indent t.bound t
      (indent, breaks, u)
  let (text, last, tail, w) := blockLines folded indent u.bound breaks u
  let ending := match chomp with
    | .strip => []
    | .clip => last
    | .keep => last ++ tail
  return (text ++ ending, w)

end PluginKit.Yaml
