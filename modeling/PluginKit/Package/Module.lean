import PluginKit.Package.Component

/-!
# The module of a plugin

The code of a generated plugin: a heading, the imports, the classes of the components and the class of the
plugin itself, which lists the components and the configuration. The HTTP library is imported and declared as
a dependency exactly if a component fetches pages, and the type of configuration fields is imported exactly if
there is a configuration.
-/

namespace PluginKit.Package

open Value (str)

structure ConfigField where
  key : Text
  default : Text
  description : Text
  deriving DecidableEq, Repr

structure ConfigSection where
  name : Text
  fields : List ConfigField
  deriving DecidableEq, Repr

structure PluginClass where
  needsHttp : Bool
  config : Option (List ConfigSection)
  rows : List ComponentRow
  deriving DecidableEq, Repr

structure Module where
  name : Text
  description : Text
  author : Text
  version : Text
  internalName : Text
  classPrefix : Text
  importsField : Bool
  usesHttp : Bool
  classes : List ComponentClass
  plugin : PluginClass
  deriving DecidableEq, Repr

namespace Module

def heading (m : Module) : List Line :=
  [.code 0 "\"\"\"",
    .code 0 (m.name ++ " - 由 MaiScript 自动生成"),
    .blank,
    .code 0 m.description,
    .blank,
    .code 0 ("作者：" ++ m.author),
    .code 0 ("版本：" ++ m.version),
    .blank,
    .code 0 "⚠️ 此文件由 mai_script 编译器自动生成，请勿直接修改。",
    .code 0 "   如需修改，请编辑源 .mai 文件后重新编译。",
    .code 0 "\"\"\"",
    .blank]

def configImport : Line := .code 1 "ConfigField,"

def imports (m : Module) : List Line :=
  [.code 0 "from typing import List, Tuple, Type, Optional",
    .code 0 "from src.plugin_system import (",
    .code 1 "BasePlugin,",
    .code 1 "register_plugin,",
    .code 1 "BaseAction,",
    .code 1 "BaseCommand,",
    .code 1 "ComponentInfo,",
    .code 1 "ActionActivationType,"] ++
  (if m.importsField then [configImport] else []) ++
  [.code 0 ")",
    .code 0 "from src.common.logger import get_logger",
    .blank,
    .assign 0 "logger" (.plain ("get_logger(\"" ++ m.internalName ++ "\")")),
    .blank]

def httpImport : List Line :=
  [.code 0 "import asyncio",
    .code 0 "try:",
    .code 1 "import aiohttp",
    .assign 1 "_HAS_AIOHTTP" (.plain "True"),
    .code 0 "except ImportError:",
    .assign 1 "_HAS_AIOHTTP" (.plain "False"),
    .blank]

def fieldLine (f : ConfigField) : Line :=
  ⟨3, .field f.key f.default f.description⟩

def sectionLines (s : ConfigSection) : List Line :=
  [.code 2 ("\"" ++ s.name ++ "\": \x7b")] ++ s.fields.map fieldLine ++ [.code 2 "\x7d,"]

def schemaLines : Option (List ConfigSection) → List Line
  | none => [.assign 1 "config_schema: dict" (.plain "\x7b\x7d")]
  | some sections =>
    [.assign 1 "config_schema: dict" (.plain "\x7b")] ++ sections.flatMap sectionLines ++ [.code 1 "\x7d"]

def dependencyLine (usesHttp : Bool) : Line :=
  .assign 1 "python_dependencies: List[str]" (.plain (if usesHttp then "[\"aiohttp\"]" else "[]"))

def pluginClass (m : Module) : List Line :=
  [.code 0 "# ---- 主插件类 ----",
    .code 0 "@register_plugin",
    .code 0 ("class " ++ m.classPrefix ++ "Plugin(BasePlugin):"),
    .code 1 ("\"\"\"由 MaiScript 生成：" ++ m.name ++ "\"\"\""),
    .blank,
    .assign 1 "plugin_name" (.quoted m.internalName),
    .assign 1 "enable_plugin" (.plain "True"),
    .assign 1 "dependencies: List[str]" (.plain "[]"),
    dependencyLine m.plugin.needsHttp,
    .assign 1 "config_file_name" (.quoted "config.toml")] ++
  schemaLines m.plugin.config ++
  [.blank,
    .code 1 "def get_plugin_components(self) -> List[Tuple[ComponentInfo, Type]]:",
    .code 2 "\"\"\"返回所有组件\"\"\"",
    .code 2 "return ["] ++
  m.plugin.rows.map ComponentRow.line ++
  [.code 2 "]"]

def lines (m : Module) : List Line :=
  m.heading ++ m.imports ++ (if m.usesHttp then httpImport else []) ++
    m.classes.flatMap (fun c => c.lines ++ [.blank]) ++ m.pluginClass

def text (m : Module) : Text :=
  Text.join "\n" (m.lines.map Line.render)

end Module

/-! ### From plugin data -/

/-- What a configuration value says about its default and its description, under a key. -/
def configValue (key value : Value) : Value × Value :=
  match value.view with
  | .dict entries =>
    ((Value.field? "default" entries).getD (str ""), (Value.field? "description" entries).getD key)
  | _ => (value, key)

def configField (entry : Value × Value) : Outcome ConfigField := do
  let (default, description) := configValue entry.1 entry.2
  return ⟨← entry.1.display, ← default.literal, ← description.display⟩

/-- A section of the configuration; only a mapping has fields. -/
def configSection (entry : Value × Value) : Outcome ConfigSection := do
  let name ← entry.1.display
  match entry.2.view with
  | .dict fields => return ⟨name, ← fields.mapM configField⟩
  | _ => return ⟨name, []⟩

/-- The sections of a configuration, which is a mapping unless it is empty. -/
def configSections? (config : Value) : Outcome (Option (List ConfigSection)) := do
  if config.truthy then return some (← (← config.entriesFor "items").mapM configSection) else return none

def fetchesPages (component : Value) : Outcome Bool :=
  (component.get "type" .null).map (·.isStr "http_get")

def anyFetchesPages : List Value → Outcome Bool
  | [] => .ok false
  | c :: rest => do if ← fetchesPages c then return true else anyFetchesPages rest

def eitherFetchesPages (commands actions : Value) : Outcome Bool := do
  let both ← commands.append actions
  anyFetchesPages (← both.elements)

/-- What the class of a plugin says. The names of the classes are formed once more from the components. -/
def PluginClass.ofValues (start : Text) (commands actions config : Value) : Outcome PluginClass := do
  let needsHttp ← eitherFetchesPages commands actions
  let sections ← configSections? config
  let commandRows ← (← commands.elements).mapM (componentRow start .command)
  let actionRows ← (← actions.elements).mapM (componentRow start .action)
  return ⟨needsHttp, sections, commandRows ++ actionRows⟩

def Module.ofValues (plugin commands actions config : Value) : Outcome Module := do
  let internalName ← (← plugin.item "internal_name").text
  let name ← (← plugin.item "name").display
  let description ← (← plugin.item "description").display
  let author ← (← plugin.item "author").display
  let version ← (← plugin.item "version").display
  let http ← eitherFetchesPages commands actions
  let start := Script.className internalName
  let commandClasses ← (← commands.elements).mapM (componentClass start .command)
  let actionClasses ← (← actions.elements).mapM (componentClass start .action)
  let pluginClass ← PluginClass.ofValues start commands actions config
  return { name := name
           description := description
           author := author
           version := version
           internalName := internalName
           classPrefix := start
           importsField := config.truthy
           usesHttp := http
           classes := commandClasses ++ actionClasses
           plugin := pluginClass }

end PluginKit.Package
