import PluginKit.Text.Basic
import PluginKit.Text.Word

/-!
# Match texts

A command says by a match text which messages it answers: a plain text with placeholders in braces, such as
`/weather {city}`, or a regular expression, which begins with `^`. A match text of the first form is turned
into a regular expression: its characters are escaped and each placeholder becomes a group that captures at
least one character.
-/

namespace PluginKit.Script

def isSpecial (c : CodePoint) : Bool :=
  ("()[]\x7b\x7d?*+-|^$\\.&~# \t\n\r\x0b\x0c" : Text).contains c

def escapeRegexChar (c : CodePoint) : Text :=
  if isSpecial c then ['\\', c] else [c]

def escapeRegex (s : Text) : Text :=
  s.flatMap escapeRegexChar

/-- The word of a placeholder whose opening brace stands just before the text. -/
def placeholder? (cs : Text) : Option Text :=
  let word := cs.takeWhile Text.isWord
  if word.isEmpty then none
  else if (cs.drop word.length).head? = some '\x7d' then some word
  else none

/-- The words in braces, from left to right. A placeholder holds no brace, so the search may go on right
behind its opening brace. -/
def placeholders : Text → List Text
  | [] => []
  | c :: cs =>
    match (if c = '\x7b' then placeholder? cs else none) with
    | some word => word :: placeholders cs
    | none => placeholders cs

def escapedPlaceholder (word : Text) : Text :=
  "\\\x7b" ++ word ++ "\\\x7d"

def capture : Text := "(.+)"

def openGroups (escaped : Text) (words : List Text) : Text :=
  words.foldl (fun s word => Text.replaceAll (escapedPlaceholder word) capture s) escaped

def matchPattern (m : Text) : Text :=
  if m.head? = some '^' then m
  else "^" ++ openGroups (escapeRegex m) (placeholders m) ++ "$"

end PluginKit.Script
