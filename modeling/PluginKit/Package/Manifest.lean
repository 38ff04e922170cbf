import PluginKit.Json.Writer
import PluginKit.Role
import PluginKit.Value.Access

/-!
# The manifest

The manifest of a plugin says in JSON what the plugin is and which components it has, commands first.
-/

namespace PluginKit.Package

open Value (str)

def manifestComponent (role : Role) (component : Value) : Outcome Value := do
  let internalName ← component.item "internal_name"
  let name ← component.item "name"
  let description ← component.get "description" name
  return .record [("type", str role.name), ("name", internalName), ("description", description)]

def manifestComponents (commands actions : Value) : Outcome (List Value) := do
  let commandRows ← (← commands.elements).mapM (manifestComponent .command)
  let actionRows ← (← actions.elements).mapM (manifestComponent .action)
  return commandRows ++ actionRows

def manifest (plugin commands actions : Value) : Outcome Value := do
  let components ← manifestComponents commands actions
  let name ← plugin.item "name"
  let version ← plugin.item "version"
  let description ← plugin.item "description"
  let author ← plugin.item "author"
  let keywords ← plugin.get "keywords" (.list [str "maiscript"])
  let categories ← plugin.get "categories" (.list [str "Other"])
  return .record [
    ("manifest_version", .int 1),
    ("name", name),
    ("version", version),
    ("description", description),
    ("author", .record [("name", author)]),
    ("license", str "MIT"),
    ("host_application", .record [("min_version", str "0.8.0")]),
    ("keywords", keywords),
    ("categories", categories),
    ("plugin_info", .record [
      ("is_built_in", .bool false),
      ("plugin_type", str "general"),
      ("components", .list components)])]

end PluginKit.Package
