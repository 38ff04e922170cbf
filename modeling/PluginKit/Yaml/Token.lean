import PluginKit.Yaml.Scalar

/-!
# Tokens

The text is cut into tokens. Blocks are marked by their indentation, so the tokens for their beginning and
end are made from the columns at which lines start. Whether a scalar is a key is known only when a colon
follows it; until then its place is remembered, and the tokens that make it a key are put in front of it
afterwards. A remembered place is given up at the end of its line or after 1024 characters.

Tokens are made on demand: the text is read only as far as is needed to know the next token, so what is wrong
further on is not noticed while something before it is.
-/

namespace PluginKit.Yaml

inductive Directive where
  | version (major minor : Nat)
  | tagHandle (handle tagPrefix : Text)
  | other
  deriving DecidableEq, Repr

inductive Token where
  | streamEnd
  | directive (d : Directive)
  | documentStart
  | documentEnd
  | blockSequenceStart
  | blockMappingStart
  | blockEnd
  | flowSequenceStart
  | flowSequenceEnd
  | flowMappingStart
  | flowMappingEnd
  | blockEntry
  | flowEntry
  | key
  | value
  | alias (name : Text)
  | anchor (name : Text)
  | tag (handle : Option Text) (suffix : Text)
  | scalar (text : Text) (plain : Bool)
  deriving DecidableEq, Repr

structure PossibleKey where
  tokenNumber : Nat
  required : Bool
  index : Nat
  line : Nat
  column : Nat

structure Scanner where
  cursor : Cursor
  flowLevel : Nat
  /-- The column of the current block, and below it those of the enclosing ones. -/
  indent : Int
  indents : List Int
  keyAllowed : Bool
  keys : List (Nat × PossibleKey)
  /-- The tokens that have been made and not taken yet, the next one first. -/
  queue : List Token
  taken : Nat
  done : Bool

namespace Scanner

def start (text : Text) : Scanner :=
  { cursor := .start text, flowLevel := 0, indent := -1, indents := [], keyAllowed := true, keys := [],
    queue := [], taken := 0, done := false }

def made (s : Scanner) : Nat :=
  s.taken + s.queue.length

def add (s : Scanner) (t : Token) : Scanner :=
  { s with queue := s.queue ++ [t] }

def at_ (s : Scanner) (c : Cursor) : Scanner :=
  { s with cursor := c }

def addMark (s : Scanner) (n : Nat) (t : Token) : Scanner :=
  (s.at_ (s.cursor.forward n)).add t

def insertToken (s : Scanner) (number : Nat) (t : Token) : Scanner :=
  { s with queue := s.queue.insertIdx (number - s.taken) t }

def key? (s : Scanner) : Option PossibleKey :=
  (s.keys.find? (·.1 == s.flowLevel)).map (·.2)

def dropKey (s : Scanner) : Scanner :=
  { s with keys := s.keys.filter (·.1 != s.flowLevel) }

def noColon : Failure := .malformed "could not find expected ':'"

/-- Gives up the possible keys that lie too far back. -/
def dropStaleKeys (s : Scanner) : Except Failure Scanner :=
  let stale (k : PossibleKey) : Bool :=
    k.line != s.cursor.line || s.cursor.index - k.index > 1024
  if s.keys.any fun k => stale k.2 && k.2.required then .error noColon
  else .ok { s with keys := s.keys.filter fun k => !stale k.2 }

def removeKey (s : Scanner) : Except Failure Scanner :=
  match s.key? with
  | some k => if k.required then .error noColon else .ok s.dropKey
  | none => .ok s

def saveKey (s : Scanner) : Except Failure Scanner :=
  if s.keyAllowed then do
    let c := s.cursor
    let required := s.flowLevel == 0 && s.indent == (c.column : Int)
    let s ← s.removeKey
    return { s with
      keys := (s.flowLevel, ⟨s.made, required, c.index, c.line, c.column⟩) :: s.keys }
  else .ok s

def unwindFrom (column : Int) : List Int → Scanner → Scanner
  | [], s => s
  | outer :: rest, s =>
    if s.indent > column then
      unwindFrom column rest ({ s with indent := outer, indents := rest }.add .blockEnd)
    else s

def unwind (s : Scanner) (column : Int) : Scanner :=
  if s.flowLevel == 0 then unwindFrom column s.indents s else s

/-- Opens a block at a column, if it stands further right than the current one. -/
def addIndent (s : Scanner) (column : Nat) : Option Scanner :=
  if s.indent < (column : Int) then
    some { s with indents := s.indent :: s.indents, indent := column }
  else none

def openBlock (s : Scanner) (t : Token) : Scanner :=
  match s.addIndent s.cursor.column with
  | some s' => s'.add t
  | none => s

def skipBlanks : Nat → Scanner → Scanner
  | 0, s => s
  | fuel + 1, s =>
    let c := s.cursor.skipComment
    if isBreak c.peek then
      skipBlanks fuel { s with
        cursor := c.lineBreak.2
        keyAllowed := s.keyAllowed || s.flowLevel == 0 }
    else s.at_ c

/-! ### Directives, anchors and tags -/

def versionNumber (c : Cursor) : Except Failure (Nat × Cursor) :=
  let digits := c.rest.takeWhile Text.isAsciiDigit
  if digits.isEmpty then .error (.malformed "expected a digit")
  else if digits.length > Text.maxDigits then .error (.fault (.badValue (.tooManyDigits digits.length)))
  else .ok (((Text.digitsValue? 10 digits).getD 0), c.forward digits.length)

def isTagChar (c : CodePoint) : Bool :=
  isNameChar c || ("-;/?:@&=+$,_.!~*'()[]" : Text).contains c

/-- Bytes written as percent signs with two hexadecimal digits. -/
def percentBytes : Nat → Cursor → Except Failure (List UInt8 × Cursor)
  | 0, c => .ok ([], c)
  | fuel + 1, c =>
    if c.peek == '%' then
      let digits := (c.forward 1).ahead 2
      match (if digits.length = 2 then Text.hexNumber? digits else none) with
      | none => .error (.malformed "expected URI escape sequence of 2 hexadecimal numbers")
      | some n => do
        let (more, d) ← percentBytes fuel (c.forward 3)
        return (n.toUInt8 :: more, d)
    else .ok ([], c)

def tagText : Nat → Cursor → Except Failure (Text × Cursor)
  | 0, c => .ok ([], c)
  | fuel + 1, c =>
    let plain := c.rest.takeWhile isTagChar
    let d := c.forward plain.length
    if d.peek == '%' then do
      let (bytes, e) ← percentBytes d.bound d
      match Text.decodeUtf8 bytes with
      | .error err => throw (.malformed err.message)
      | .ok s =>
        let (more, f) ← tagText fuel e
        return (plain ++ s ++ more, f)
    else .ok (plain, d)

def tagUri (c : Cursor) : Except Failure (Text × Cursor) := do
  let (text, d) ← tagText c.bound c
  if d.index == c.index then throw (.malformed "expected URI")
  return (text, d)

/-- A tag handle: an exclamation mark, alone or with a name and another one after it. -/
def tagHandle (c : Cursor) : Except Failure (Text × Cursor) :=
  if c.peek != '!' then .error (.malformed "expected '!'")
  else if c.peekAt 1 == ' ' then .ok ("!", c.forward 1)
  else
    let name := (c.forward 1).rest.takeWhile isNameChar
    if c.peekAt (1 + name.length) != '!' then .error (.malformed "expected '!'")
    else .ok ("!" ++ name ++ "!", c.forward (name.length + 2))

def directiveBody (c : Cursor) : Except Failure (Directive × Cursor) := do
  let name := c.rest.takeWhile isNameChar
  if name.isEmpty then throw (.malformed "expected alphabetic or numeric character")
  let d := c.forward name.length
  if !isSpaceOrEnd d.peek then throw (.malformed "expected alphabetic or numeric character")
  if name == "YAML" then
    let (major, e) ← versionNumber (d.skip isSpace)
    if e.peek != '.' then throw (.malformed "expected a digit or '.'")
    let (minor, f) ← versionNumber (e.forward 1)
    if !isSpaceOrEnd f.peek then throw (.malformed "expected a digit or ' '")
    return (.version major minor, f)
  else if name == "TAG" then
    let (handle, e) ← tagHandle (d.skip isSpace)
    if e.peek != ' ' then throw (.malformed "expected ' '")
    let (tagPrefix, f) ← tagUri (e.skip isSpace)
    if !isSpaceOrEnd f.peek then throw (.malformed "expected ' '")
    return (.tagHandle handle tagPrefix, f)
  else return (.other, d.skip (!isBreakOrEnd ·))

def readDirective (c : Cursor) : Except Failure (Token × Cursor) := do
  let (d, e) ← directiveBody (c.forward 1)
  let f := e.skipComment
  if !isBreakOrEnd f.peek then throw (.malformed "expected a comment or a line break")
  return (.directive d, f.lineBreak.2)

def anchorName (c : Cursor) : Except Failure (Text × Cursor) := do
  let name := (c.forward 1).rest.takeWhile isNameChar
  if name.isEmpty then throw (.malformed "expected alphabetic or numeric character")
  let d := c.forward (name.length + 1)
  if !(isBlankOrEnd d.peek || ("?:,]\x7d%@" : Text).contains d.peek || d.peek.toNat == 0x60) then
    throw (.malformed "expected alphabetic or numeric character")
  return (name, d)

/-- A tag: verbatim between angle brackets, a lone exclamation mark, or a handle with a suffix. -/
def readTag (c : Cursor) : Except Failure (Token × Cursor) := do
  let (token, d) ←
    if c.peekAt 1 == '<' then do
      let (uri, d) ← tagUri (c.forward 2)
      if d.peek != '>' then throw (.malformed "expected '>'")
      pure (Token.tag none uri, d.forward 1)
    else if isBlankOrEnd (c.peekAt 1) then pure (Token.tag none "!", c.forward 1)
    else do
      let (handle, d) ←
        if ((c.forward 1).rest.takeWhile (!isSpaceOrEnd ·)).contains '!' then tagHandle c
        else pure ("!", c.forward 1)
      let (suffix, e) ← tagUri d
      pure (Token.tag (some handle) suffix, e)
  if !isSpaceOrEnd d.peek then throw (.malformed "expected ' '")
  return (token, d)

/-! ### One token -/

/-- The end of all blocks, before a directive, a document mark or the end of the text. -/
def closeAll (s : Scanner) : Except Failure Scanner := do
  let s ← (s.unwind (-1)).removeKey
  return { s with keyAllowed := false }

def openFlow (s : Scanner) (t : Token) : Except Failure Scanner := do
  let s ← s.saveKey
  return { s with flowLevel := s.flowLevel + 1, keyAllowed := true }.addMark 1 t

def closeFlow (s : Scanner) (t : Token) : Except Failure Scanner := do
  if s.flowLevel == 0 then throw (.malformed "found a closing bracket without an opening one")
  let s ← s.removeKey
  return { s with flowLevel := s.flowLevel - 1, keyAllowed := false }.addMark 1 t

def blockEntry (s : Scanner) : Except Failure Scanner := do
  let s ←
    if s.flowLevel == 0 then
      if s.keyAllowed then pure (s.openBlock .blockSequenceStart)
      else throw (.malformed "sequence entries are not allowed here")
    else pure s
  let s ← removeKey { s with keyAllowed := true }
  return s.addMark 1 .blockEntry

def explicitKey (s : Scanner) : Except Failure Scanner := do
  let s ←
    if s.flowLevel == 0 then
      if s.keyAllowed then pure (s.openBlock .blockMappingStart)
      else throw (.malformed "mapping keys are not allowed here")
    else pure s
  let s ← removeKey { s with keyAllowed := s.flowLevel == 0 }
  return s.addMark 1 .key

/-- A colon: the possible key before it becomes a key, or the value of an explicit key follows. -/
def colon (s : Scanner) : Except Failure Scanner := do
  match s.key? with
  | some k =>
    let s := s.dropKey.insertToken k.tokenNumber .key
    let s :=
      if s.flowLevel == 0 then
        match s.addIndent k.column with
        | some s' => s'.insertToken k.tokenNumber .blockMappingStart
        | none => s
      else s
    return { s with keyAllowed := false }.addMark 1 .value
  | none =>
    if s.flowLevel == 0 && !s.keyAllowed then throw (.malformed "mapping values are not allowed here")
    let s := if s.flowLevel == 0 then s.openBlock .blockMappingStart else s
    let s ← removeKey { s with keyAllowed := s.flowLevel == 0 }
    return s.addMark 1 .value

def keyStart (s : Scanner) (read : Cursor → Except Failure (Token × Cursor)) :
    Except Failure Scanner := do
  let s ← s.saveKey
  let (t, c) ← read s.cursor
  return { s with keyAllowed := false, cursor := c }.add t

def block (s : Scanner) (folded : Bool) : Except Failure Scanner := do
  let s ← removeKey { s with keyAllowed := true }
  let (text, c) ← blockScalar folded s.indent s.cursor
  return (s.at_ c).add (.scalar text false)

def quoted (s : Scanner) (double : Bool) : Except Failure Scanner :=
  s.keyStart fun c => do
    let (text, d) ← quotedScalar double c
    return (.scalar text false, d)

def plain (s : Scanner) : Except Failure Scanner := do
  let s ← s.saveKey
  let (text, c, broken) :=
    plainWords (s.flowLevel != 0) (s.indent + 1) s.cursor.bound [] false s.cursor
  return { s with keyAllowed := broken, cursor := c }.add (.scalar text true)

def startsPlain (s : Scanner) : Bool :=
  let c := s.cursor.peek
  let indicator := isBlankOrEnd c || ("-?:,[]\x7b\x7d#&*!|>'\"%@" : Text).contains c || c.toNat == 0x60
  !indicator ||
    (!isBlankOrEnd (s.cursor.peekAt 1) &&
      (c == '-' || (s.flowLevel == 0 && (c == '?' || c == ':'))))

def fetch (s : Scanner) : Except Failure Scanner := do
  let s ← (skipBlanks s.cursor.bound s).dropStaleKeys
  let s := s.unwind s.cursor.column
  let c := s.cursor.peek
  let blankNext := isBlankOrEnd (s.cursor.peekAt 1)
  let lineStart := s.cursor.column == 0
  let flow := s.flowLevel != 0
  if s.cursor.rest.isEmpty then
    return { (← s.closeAll).add .streamEnd with keys := [], done := true }
  else if c == '%' && lineStart then
    let s ← s.closeAll
    let (t, d) ← readDirective s.cursor
    return (s.at_ d).add t
  else if c == '-' && lineStart && s.cursor.atSeparator then
    return (← s.closeAll).addMark 3 .documentStart
  else if c == '.' && lineStart && s.cursor.atSeparator then
    return (← s.closeAll).addMark 3 .documentEnd
  else if c == '[' then s.openFlow .flowSequenceStart
  else if c == '\x7b' then s.openFlow .flowMappingStart
  else if c == ']' then s.closeFlow .flowSequenceEnd
  else if c == '\x7d' then s.closeFlow .flowMappingEnd
  else if c == ',' then
    return (← removeKey { s with keyAllowed := true }).addMark 1 .flowEntry
  else if c == '-' && blankNext then s.blockEntry
  else if c == '?' && (flow || blankNext) then s.explicitKey
  else if c == ':' && (flow || blankNext) then s.colon
  else if c == '*' then
    s.keyStart fun d => do
      let (name, e) ← anchorName d
      return (.alias name, e)
  else if c == '&' then
    s.keyStart fun d => do
      let (name, e) ← anchorName d
      return (.anchor name, e)
  else if c == '!' then s.keyStart readTag
  else if c == '|' && !flow then s.block false
  else if c == '>' && !flow then s.block true
  else if c == '\'' then s.quoted false
  else if c == '"' then s.quoted true
  else if s.startsPlain then s.plain
  else throw (.malformed "found character that cannot start any token")

def nextKey? (s : Scanner) : Option Nat :=
  (s.keys.map (·.2.tokenNumber)).min?

/-- Makes tokens until the next one is known: there is one, and no key can come in front of it any more. -/
def fill : Nat → Scanner → Except Failure Scanner
  | 0, s => .ok s
  | fuel + 1, s =>
    if s.done then .ok s
    else if s.queue.isEmpty then do fill fuel (← s.fetch)
    else do
      let s ← s.dropStaleKeys
      if s.nextKey? == some s.taken then fill fuel (← s.fetch) else return s

/-- The next token and the state in which it is known. Behind the end of the text, the end goes on. -/
def peek (s : Scanner) : Except Failure (Token × Scanner) := do
  let s ← fill s.cursor.bound s
  return (s.queue.head?.getD .streamEnd, s)

def next (s : Scanner) : Scanner :=
  { s with queue := s.queue.tail, taken := s.taken + 1 }

/-- The state at the beginning of a text. A text with characters that YAML does not allow has none; a byte
order mark in front is passed over. -/
def ofText (text : Text) : Except Failure Scanner :=
  if text.all isAllowed then
    let s := start text
    .ok (if text.head? == some '\ufeff' then s.at_ (s.cursor.forward 1) else s)
  else .error (.malformed "special characters are not allowed")

end Scanner

end PluginKit.Yaml
