import PluginKit.Script.Name
import PluginKit.Value.Access

/-!
# Filling templates

A new plugin has a name and a few facts about it, which take the place of the placeholders in its files. The
placeholders are replaced one after another, in a fixed order, so that a fact that contains a later
placeholder has it replaced too.
-/

namespace PluginKit.Template

open Value (str)

structure Facts where
  name : Text
  description : Text
  version : Text
  author : Text
  year : Nat

namespace Facts

/-- The name as it is shown: words in place of underscores, each beginning with a capital letter. -/
def displayName (f : Facts) : Text :=
  Text.title (Text.replaceAll "_" " " f.name)

def placeholder (word : Text) : Text := "\x7b\x7b" ++ word ++ "\x7d\x7d"

/-- The placeholders and what takes their place, in the order of replacing. -/
def replacements (f : Facts) : List (Text × Text) :=
  let classes := Script.classPrefix f.name
  [("PLUGIN_NAME", f.name),
    ("PLUGIN_DISPLAY_NAME", f.displayName),
    ("PLUGIN_DESCRIPTION", f.description),
    ("PLUGIN_VERSION", f.version),
    ("PLUGIN_AUTHOR", f.author),
    ("PLUGIN_YEAR", Text.padNat 0 f.year),
    ("PLUGIN_CLASS_NAME", classes ++ "Plugin"),
    ("ACTION_CLASS_NAME", classes ++ "Action"),
    ("COMMAND_CLASS_NAME", classes ++ "Command"),
    ("TOOL_CLASS_NAME", classes ++ "Tool"),
    ("HANDLER_CLASS_NAME", classes ++ "EventHandler"),
    ("START_HANDLER_CLASS_NAME", classes ++ "StartHandler")]

def fill (f : Facts) (text : Text) : Text :=
  f.replacements.foldl (fun s r => Text.replaceAll (placeholder r.1) r.2 s) text

/-- The author field of a manifest: a dictionary that is there already, or an empty one. -/
def authorField (manifest : Value) : Outcome Value := do
  if ← manifest.holds "author" then
    let author ← manifest.item "author"
    return if author.kind = .dict then author else .dict []
  else return .dict []

def update (f : Facts) (manifest : Value) : Outcome Value := do
  let manifest ← manifest.setItem "name" (str f.displayName)
  let manifest ← manifest.setItem "version" (str f.version)
  let manifest ← manifest.setItem "description" (str f.description)
  let author ← (← authorField manifest).setItem "name" (str f.author)
  manifest.setItem "author" author

end Facts

end PluginKit.Template
