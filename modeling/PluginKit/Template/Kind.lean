import PluginKit.Text.Basic

/-!
# Kinds of templates

There are six templates for new plugins. Each has a key, by which it is asked for, and a few lines that help
to choose. An overview of them, which leaves out the advanced one, says more about each.
-/

namespace PluginKit.Template

inductive Kind where
  | minimal
  | action
  | command
  | full
  | bridge
  | advanced
  deriving DecidableEq, Repr

namespace Kind

def all : List Kind := [minimal, action, command, full, bridge, advanced]

/-- The key of a template, which is also the name of its directory. -/
def key : Kind → Text
  | minimal => "minimal"
  | action => "action"
  | command => "command"
  | full => "full"
  | bridge => "js_bridge"
  | advanced => "advanced"

def ofKey? (key : Text) : Option Kind := all.find? (·.key == key)

def ofNumber? (n : Int) : Option Kind :=
  if n < 1 then none else all[n.toNat - 1]?

def title : Kind → Text
  | minimal => "🔹 Minimal（最简模板）"
  | action => "🎭 Action（行为插件）"
  | command => "💻 Command（命令插件）"
  | full => "🌟 Full（完整功能插件）"
  | bridge => "⚡ JS Bridge（JS 轻量插件）"
  | advanced => "🚀 Advanced（高级功能插件）"

def summary : Kind → Text
  | minimal => "最小化插件骨架，只有必要的结构，适合从零手写"
  | action => "让麦麦拥有新的自主行为，如发图/语音/搜索等，由 LLM 决定何时调用"
  | command => "响应固定命令（如 /ping /weather），精确触发，无 LLM 参与"
  | full => "包含 Action + Command + Tool + EventHandler 的完整示例，展示所有功能"
  | bridge => "使用 JavaScript 编写简单插件逻辑，通过桥接器与麦麦交互"
  | advanced => "演示回复组件注入、自定义提示词、底层 LLM 调用等高级功能，需要 mai_advanced 扩展层"

def skill : Kind → Text
  | minimal => "Python 基础"
  | action => "Python + 异步基础"
  | command => "Python 基础"
  | full => "Python 进阶"
  | bridge => "JavaScript 基础"
  | advanced => "Python 进阶 + 异步"

def mainFile : Kind → Text
  | bridge => "plugin.js"
  | _ => "plugin.py"

end Kind

/-! ### The overview -/

structure Overview where
  kind : Kind
  description : Text
  files : List Text
  useCase : Text

def overviews : List Overview :=
  [⟨.minimal, "最小化插件骨架，只有必要的结构文件", ["_manifest.json", "plugin.py", "README.md"],
      "从零开始手写插件，或学习插件结构"⟩,
    ⟨.action, "扩展麦麦的自主行为能力，由 LLM 智能决定何时触发",
      ["_manifest.json", "plugin.py", "config.schema.py", "README.md"],
      "发表情、搜索信息、播放音乐、天气查询等智能行为"⟩,
    ⟨.command, "精确响应用户的固定命令，立即执行无需 LLM", ["_manifest.json", "plugin.py", "README.md"],
      "/ping /help /status 等管理命令"⟩,
    ⟨.full, "包含 Action + Command + Tool + EventHandler 的完整功能示例",
      ["_manifest.json", "plugin.py", "config.schema.py", "README.md", "utils.py"],
      "需要多种功能的复杂插件，如签到系统、游戏等"⟩,
    ⟨.bridge, "使用 JavaScript 编写插件逻辑，通过内置桥接器与麦麦交互",
      ["_manifest.json", "plugin.py", "plugin.js", "README.md"],
      "前端开发者、不熟悉 Python 的用户快速开发简单插件"⟩]

def Overview.lines (o : Overview) : List Text :=
  ["\n  " ++ o.kind.title,
    "  模板标识：" ++ o.kind.key,
    "  描述：" ++ o.description,
    "  技术要求：" ++ o.kind.skill,
    "  适用场景：" ++ o.useCase,
    "  包含文件：" ++ Text.join ", " o.files,
    "  创建命令：mai create my_plugin -t " ++ o.kind.key,
    ""]

def ruler (width : Nat) : Text := Text.times width '='

def overviewHeading : List Text := ["\n📦 MaiBot 插件可用模板\n", ruler 60]

def overviewExamples : List Text :=
  [ruler 60,
    "\n💡 使用示例：",
    "  mai create weather_plugin -t action      # 天气查询 Action 插件",
    "  mai create admin_commands -t command     # 管理命令插件",
    "  mai create my_game -t full               # 完整游戏插件",
    "  mai create quick_tool -t js_bridge       # JS 快速工具插件",
    ""]

def overviewLines : List Text :=
  overviewHeading ++ overviews.flatMap Overview.lines ++ overviewExamples

end PluginKit.Template
