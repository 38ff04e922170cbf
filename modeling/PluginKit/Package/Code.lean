import PluginKit.Script.Match

/-!
# Lines of generated code

The module of a generated plugin is put together from lines. A line knows what it does as far as other lines
depend on it: which variable it sets, which text with placeholders it fills in, whether it asks for the HTTP
library or declares a field of the configuration. Its written form follows from that by `Line.render`.
-/

namespace PluginKit.Package

inductive Expr where
  | plain (code : Text)
  | quoted (text : Text)
  /-- A text between quotes in which a backslash stands for itself. -/
  | raw (text : Text)
  /-- A text between quotes in which words in braces stand for variables. -/
  | template (text : Text)
  | longTemplate (text : Text)
  deriving DecidableEq, Repr

/-- The code of an expression. The text stands between the quotes as it is. -/
def Expr.render : Expr → Text
  | plain code => code
  | quoted text => "\"" ++ text ++ "\""
  | raw text => "r\"" ++ text ++ "\""
  | template text => "f\"" ++ text ++ "\""
  | longTemplate text => "f\"\"\"" ++ text ++ "\"\"\""

inductive Statement where
  | assign (name : Text) (value : Expr)
  | send (value : Expr)
  | unlessHttp
  | field (key default description : Text)
  | code (text : Text)
  deriving DecidableEq, Repr

def Statement.render : Statement → Text
  | assign name value => name ++ " = " ++ value.render
  | send value => "await self.send_text(" ++ value.render ++ ")"
  | unlessHttp => "if not _HAS_AIOHTTP:"
  | field key default description =>
    "\"" ++ key ++ "\": ConfigField(type=str, default=" ++ default ++ ", description=\"" ++ description ++
      "\"),"
  | code text => text

structure Line where
  level : Nat
  statement : Statement
  deriving DecidableEq, Repr

namespace Line

def margin (level : Nat) : Text :=
  Text.times (4 * level) ' '

def render (l : Line) : Text :=
  margin l.level ++ l.statement.render

def code (level : Nat) (text : Text) : Line := ⟨level, .code text⟩

def assign (level : Nat) (name : Text) (value : Expr) : Line := ⟨level, .assign name value⟩

def send (level : Nat) (value : Expr) : Line := ⟨level, .send value⟩

def blank : Line := code 0 ""

end Line

def variablesIn (text : Text) : List Text :=
  Script.placeholders text

def captureLine (level : Nat) (name : Text) : Line :=
  .assign level name (.plain ("self.matched_groups.get(\"" ++ name ++ "\", \"\")"))

def parameterLine (level : Nat) (name : Text) : Line :=
  .assign level name (.plain ("self.action_data.get(\"" ++ name ++ "\", \"\")"))

def senderVariable : Text := "user_name"

def senderLine (level : Nat) : Line :=
  .assign level senderVariable (.plain ("getattr(self.message, \"sender_nickname\", \"朋友\") " ++
    "if hasattr(self, \"message\") and self.message else \"朋友\""))

def replyLines (level : Nat) (reply : Text) : List Line :=
  let names := variablesIn reply
  (if names.contains senderVariable then [senderLine level] else []) ++
    (names.filter (· != senderVariable)).map (captureLine level) ++
    [.send level (.template reply)]

end PluginKit.Package
