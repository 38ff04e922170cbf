import PluginKit.Script.Problem
import PluginKit.Text.Utf8
import PluginKit.Value.Display

/-!
# Faults

What goes wrong when a value is used as something that it is not, when a text is no number, or when a file
cannot be read or written. A fault is a cause; its wording is given once, in `message`.
-/

namespace PluginKit

inductive Misuse where
  | notIterable (kind : Kind)
  | notContainer (kind : Kind)
  | notIndexable (kind : Kind)
  | textIndex (kind : Kind)
  | cutDictionary
  | notAssignable (kind : Kind)
  | notText (kind : Kind)
  | bytesForText
  | bytesStart
  | textForBytes
  | textForNumber
  | notAddable (left right : Kind)
  | notJoinable
  | joinElement (index : Nat) (kind : Kind)
  | noLength (kind : Kind)
  | notPair (index : Nat)
  | notKey (kind : Kind)
  | notSerializable (kind : Kind)
  | notJsonKey (kind : Kind)
  | notNumber (kind : Kind)
  | notUnpackable (kind : Kind)
  | textNeeded
  | notOrdered (left right : Kind)
  | wrongArguments
  | unusable (kind : Kind)
  deriving DecidableEq, Repr

def additionMessage (left right : Kind) : Text :=
  match left with
  | .list | .tuple | .str =>
    "can only concatenate " ++ left.name ++ " (not \"" ++ right.name ++ "\") to " ++ left.name
  | .bytes => "can't concat " ++ right.name ++ " to bytes"
  | _ => "unsupported operand type(s) for +: '" ++ left.name ++ "' and '" ++ right.name ++ "'"

def Misuse.message : Misuse → Text
  | notIterable k => "'" ++ k.name ++ "' object is not iterable"
  | notContainer k => "argument of type '" ++ k.name ++ "' is not iterable"
  | notIndexable k => "'" ++ k.name ++ "' object is not subscriptable"
  | textIndex .str => "string indices must be integers, not 'str'"
  | textIndex .bytes => "byte indices must be integers or slices, not str"
  | textIndex k => k.name ++ " indices must be integers or slices, not str"
  | cutDictionary => "unhashable type: 'slice'"
  | notAssignable k => "'" ++ k.name ++ "' object does not support item assignment"
  | notText k => "expected string or bytes-like object, got '" ++ k.name ++ "'"
  | bytesForText => "cannot use a string pattern on a bytes-like object"
  | bytesStart => "startswith first arg must be bytes or a tuple of bytes, not str"
  | textForBytes => "a bytes-like object is required, not 'str'"
  | textForNumber => "'str' object cannot be interpreted as an integer"
  | notAddable left right => additionMessage left right
  | notJoinable => "can only join an iterable"
  | joinElement i k => s!"sequence item {i}: expected str instance, " ++ k.name ++ " found"
  | noLength k => "object of type '" ++ k.name ++ "' has no len()"
  | notPair i => s!"cannot convert dictionary update sequence element #{i} to a sequence"
  | notKey k => "unhashable type: '" ++ k.name ++ "'"
  | notSerializable k => "Object of type " ++ k.shortName ++ " is not JSON serializable"
  | notJsonKey k => "keys must be str, int, float, bool or None, not " ++ k.shortName
  | notNumber k =>
    "int() argument must be a string, a bytes-like object or a real number, not '" ++ k.name ++ "'"
  | notUnpackable k => "cannot unpack non-iterable " ++ k.name ++ " object"
  | textNeeded => "'in <string>' requires string as left operand"
  | notOrdered left right =>
    "'<' not supported between instances of '" ++ left.name ++ "' and '" ++ right.name ++ "'"
  | wrongArguments => "wrong arguments"
  | unusable k => "'" ++ k.name ++ "' object is not callable"

inductive BadValue where
  | notInteger (base : Nat) (text : Text)
  | tooManyDigits (digits : Nat)
  | unwritable
  | circular
  | nullInPath
  | notByte
  | notDecimal (text : Text)
  | calendar (e : CalendarError)
  | notCharacter
  | pairLength (index length : Nat)
  | tooFew (expected length : Nat)
  | tooMany (expected : Nat)
  | other (text : Text)
  deriving DecidableEq, Repr

def BadValue.message : BadValue → Text
  | notInteger base text =>
    s!"invalid literal for int() with base {base}: " ++
      (Text.quoted text).take 200
  | tooManyDigits n =>
    s!"Exceeds the limit (4300 digits) for integer string conversion: value has {n} digits; " ++
      "use sys.set_int_max_str_digits() to increase the limit"
  | unwritable =>
    "Exceeds the limit (4300 digits) for integer string conversion; " ++
      "use sys.set_int_max_str_digits() to increase the limit"
  | circular => "Circular reference detected"
  | nullInPath => "embedded null byte"
  | notByte => "byte must be in range(0, 256)"
  | notDecimal text => "could not convert string to float: " ++ Text.quoted text
  | calendar e => e.message
  | notCharacter => "chr() arg not in range(0x110000)"
  | pairLength i n => s!"dictionary update sequence element #{i} has length {n}; 2 is required"
  | tooFew n m => s!"not enough values to unpack (expected {n}, got {m})"
  | tooMany n => s!"too many values to unpack (expected {n})"
  | other text => text

inductive FileError where
  | notFound (path : Text)
  | present (path : Text)
  | isDirectory (path : Text)
  | notDirectory (path : Text)
  | nameTooLong (path : Text)
  deriving DecidableEq, Repr

/-- The wording of a file error; the path stands in it as given, a literal or a quoted text. -/
def FileError.message : FileError → Text
  | notFound path => "[Errno 2] No such file or directory: " ++ path
  | present path => "[Errno 17] File exists: " ++ path
  | isDirectory path => "[Errno 21] Is a directory: " ++ path
  | notDirectory path => "[Errno 20] Not a directory: " ++ path
  | nameTooLong path => "[Errno 36] File name too long: " ++ path

inductive ClockError where
  | counterOverflow
  | yearTooLarge
  deriving DecidableEq, Repr

def ClockError.message : ClockError → Text
  | counterOverflow => "timestamp out of range for platform time_t"
  | yearTooLarge => "[Errno 75] Value too large for defined data type"

inductive Overflow where
  | code
  | double
  deriving DecidableEq, Repr

def Overflow.message : Overflow → Text
  | code => "Python int too large to convert to C int"
  | double => "int too large to convert to float"

/-- Anything that ends an operation early. -/
inductive Fault where
  | script (e : Script.Invalid)
  | misuse (m : Misuse)
  | noMember (kind : Kind) (member : Text)
  | missingKey (key : Value)
  /-- A position beyond the end of a sequence; the word before the rest of the message. -/
  | outOfRange (what : Text)
  | badValue (b : BadValue)
  | tooLarge (e : Overflow)
  /-- Collections inside each other too deeply; what was being done with them. -/
  | tooDeep (activity : Text)
  | noLibrary (text : Text)
  | noHost
  | host (text : Text)
  | encode (e : Text.EncodeError)
  | decode (e : Text.DecodeError)
  | file (e : FileError)
  /-- A file that a caller asked for and that is not there, in the words of the operation. -/
  | noFile (text : Text)
  | clock (e : ClockError)

def Fault.message : Fault → Text
  | script e => e.message
  | misuse m => m.message
  | noMember k member => "'" ++ k.name ++ "' object has no attribute '" ++ member ++ "'"
  | missingKey key => key.literal?.getD []
  | outOfRange what => what ++ "index out of range"
  | badValue b => b.message
  | tooLarge e => e.message
  | tooDeep activity => "maximum recursion depth exceeded" ++ activity
  | noLibrary text => text
  | noHost => "No module named 'src'"
  | host text => text
  | encode e => e.message
  | decode e => e.message
  | file e => e.message
  | noFile text => text
  | clock e => e.message

abbrev Outcome (α : Type) := Except Fault α

end PluginKit
