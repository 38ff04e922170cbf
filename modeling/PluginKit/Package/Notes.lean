import PluginKit.Package.Module

/-!
# Notes for readers

Beside its code a generated plugin has a read-me file and, if it can be configured, a note on its
configuration.
-/

namespace PluginKit.Package

def noteField (entry : Value × Value) : Outcome Text := do
  let (default, description) := configValue entry.1 entry.2
  return "- `" ++ (← entry.1.display) ++ "` = `" ++ (← default.display) ++ "` — " ++
    (← description.display)

def noteFields (fields : Value) : Outcome (List Text) :=
  match fields.view with
  | .dict entries => entries.mapM noteField
  | _ => .ok []

def noteSection (entry : Value × Value) : Outcome (List Text) := do
  let title := "## [" ++ (← entry.1.display) ++ "]"
  return title :: (← noteFields entry.2) ++ [([] : Text)]

def configNote (config : Value) : Outcome Text := do
  let sections ← (← config.entriesFor "items").mapM noteSection
  return Text.join "\n"
    ("# 配置说明" :: "" :: "此插件使用以下配置项（在 config.toml 中）：" :: "" :: sections.flatten)

def readmeCommand (command : Value) : Outcome Text := do
  let matchText ← (← command.item "match").display
  let name ← command.item "name"
  let description ← (← command.get "description" name).display
  return "- `" ++ matchText ++ "` — " ++ description

def readmeAction (action : Value) : Outcome Text := do
  let triggers ← (← action.item "when").front 2
  let shown ← triggers.joinTexts "、"
  let name ← (← action.item "name").display
  return "- **" ++ name ++ "**：" ++ shown

/-- The lines of a list of components in the read-me file, which is left out if the list is empty. -/
def readmeList (title : Text) (components : Value) (line : Value → Outcome Text) : Outcome (List Text) :=
  if components.truthy then do
    let lines ← (← components.elements).mapM line
    return title :: "" :: lines ++ [([] : Text)]
  else .ok []

def installLine (directory : Text) : Text :=
  "将 `" ++ directory ++ "/` 目录复制到 MaiBot 的 `plugins/` 目录，重启 MaiBot 即可。"

def readme (directory : Text) (plugin commands actions : Value) : Outcome Text := do
  let name ← (← plugin.item "name").display
  let description ← plugin.item "description"
  let author ← (← plugin.item "author").display
  let version ← (← plugin.item "version").display
  let commandLines ← readmeList "## 命令列表" commands readmeCommand
  let actionLines ← readmeList "## 自主行为（Action）" actions readmeAction
  match description with
  | .str text =>
    let opening : List Text :=
      ["# " ++ name, "", text, "", "**作者**：" ++ author ++ "  ", "**版本**：" ++ version ++ "  ",
        "**生成方式**：MaiScript 自动编译", ""]
    let ending : List Text := ["## 安装", "", installLine directory]
    return Text.join "\n" (opening ++ commandLines ++ actionLines ++ ending)
  | v => .error (.misuse (.joinElement 2 v.kind))

end PluginKit.Package
