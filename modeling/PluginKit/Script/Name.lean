import PluginKit.Text.Basic
import PluginKit.Text.Blank
import PluginKit.Text.Case
import PluginKit.Text.Word

/-!
# Identifiers from names

A component has a name that its author chose freely. From it comes an identifier made of word characters
only, and from that the name of a class in camel case. New plugins are created under a name that is checked
to be an identifier already, and their class names come from the parts between its underscores.
-/

namespace PluginKit.Script

/-- The name with every character that is no word character turned into an underscore, and without
underscores at its ends. -/
def wordsOnly (name : Text) : Text :=
  Text.trim (· == '_') (name.map fun c => if Text.isWord c then c else '_')

/-- An identifier for a name: word characters only, not beginning with a digit, never empty. -/
def safeName (name : Text) : Text :=
  match wordsOnly name with
  | [] => "unnamed"
  | c :: cs => if Text.isDigit c then "cmd_" ++ c :: cs else c :: cs

def camel (cap : Text → Text) (words : List Text) : Text :=
  words.flatMap cap

/-- A class name from the runs of characters between underscores and blanks. -/
def classNameWith (cap : Text → Text) (name : Text) : Text :=
  camel cap (Text.fields (fun c => c == '_' || Text.isBlank c) name)

def className (name : Text) : Text :=
  classNameWith Text.capitalize name

/-- A class name from the parts between single underscores. -/
def classPrefixWith (cap : Text → Text) (name : Text) : Text :=
  camel cap (Text.splitOn '_' name)

def classPrefix (name : Text) : Text :=
  classPrefixWith Text.capitalize name

def isNameChar (c : CodePoint) : Bool :=
  Text.isAsciiLetter c || Text.isAsciiDigit c || c == '_'

/-- Only name characters follow, up to the end of the name or to a line end that is its last character. -/
def nameTail : Text → Bool
  | [] => true
  | [.scalar '\n'] => true
  | c :: cs => isNameChar c && nameTail cs

/-- A new plugin may have this name: an ASCII letter, then letters, digits and underscores. A single line
end after them is tolerated. -/
def isPluginName (name : Text) : Bool :=
  match name with
  | [] => false
  | c :: cs => Text.isAsciiLetter c && nameTail cs

end PluginKit.Script
