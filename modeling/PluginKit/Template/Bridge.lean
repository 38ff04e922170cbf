import PluginKit.Template.File

/-!
# The bridge template

A plugin whose components are written in a script file, which a small module hands over to the bridge.
-/

namespace PluginKit.Template.Bridge

def readme : File :=
  .ofLines "README.md" [
    "# \x7b\x7bPLUGIN_DISPLAY_NAME\x7d\x7d - JS Bridge 插件",
    "",
    "\x7b\x7bPLUGIN_DESCRIPTION\x7d\x7d",
    "",
    "## 作者",
    "",
    "\x7b\x7bPLUGIN_AUTHOR\x7d\x7d",
    "",
    "## 版本",
    "",
    "\x7b\x7bPLUGIN_VERSION\x7d\x7d",
    "",
    "## 简介",
    "",
    "这是一个 **JavaScript 桥接插件**，你只需要编辑 `plugin.js` 文件即可实现插件功能，无需深入了解 Python 异步编程。",
    "",
    "## 文件说明",
    "",
    "```",
    "\x7b\x7bPLUGIN_NAME\x7d\x7d/",
    "├── _manifest.json   插件元数据（必须）",
    "├── plugin.py        Python 桥接层（不需要修改）",
    "├── plugin.js        ⭐ 你的插件逻辑（主要编辑这里）",
    "└── README.md        说明文档",
    "```",
    "",
    "## 快速开始",
    "",
    "编辑 `plugin.js` 文件，使用 `mai` 对象注册命令和行为：",
    "",
    "### 注册命令",
    "",
    "```javascript",
    "mai.command(\x7b",
    "  name: \"my_command\",",
    "  description: \"命令描述\",",
    "  pattern: /^\\/mycommand$/,       // 匹配用户输入",
    "",
    "  async execute(ctx) \x7b",
    "    await ctx.sendText(\"命令执行成功！\");",
    "    return \x7b success: true \x7d;",
    "  \x7d",
    "\x7d);",
    "```",
    "",
    "### 注册 Action（麦麦自主行为）",
    "",
    "```javascript",
    "mai.action(\x7b",
    "  name: \"my_action\",",
    "  description: \"行为描述\",",
    "  require: [\"触发条件1\", \"触发条件2\"],",
    "  parameters: \x7b \"param1\": \"参数说明\" \x7d,",
    "  types: [\"text\"],",
    "",
    "  async execute(ctx) \x7b",
    "    const value = ctx.getParam(\"param1\", \"默认值\");",
    "    await ctx.sendText(`执行了：$\x7bvalue\x7d`);",
    "    return \x7b success: true \x7d;",
    "  \x7d",
    "\x7d);",
    "```",
    "",
    "## 可用 API",
    "",
    "| 方法 | 说明 |",
    "|------|------|",
    "| `ctx.sendText(text)` | 发送文本消息 |",
    "| `ctx.sendImage(base64)` | 发送图片（base64编码） |",
    "| `ctx.sendEmoji(base64)` | 发送表情包 |",
    "| `ctx.getConfig(key, default)` | 读取配置文件中的值 |",
    "| `ctx.log(msg)` | 输出日志 |",
    "| `ctx.getParam(key, default)` | 获取 LLM 传入的 Action 参数 |",
    "| `ctx.getMatch(group)` | 获取正则捕获组（Command 专用） |",
    "",
    "## 安装",
    "",
    "1. 将整个 `\x7b\x7bPLUGIN_NAME\x7d\x7d/` 目录复制到 MaiBot 的 `plugins/` 目录",
    "2. 确保 `mai_js_bridge` 模块可被访问（包含在 MaiBot-Plugin-Kit 中）",
    "3. 重启 MaiBot",
    "",
    "## 参考文档",
    "",
    "- [JS Bridge 完整文档](https://maibot-plugin-kit.pages.dev/js/)",
    "- [MaiBot 官方文档](https://docs.mai-mai.org/)",
    ""]

def manifest : File :=
  .ofLines "_manifest.json" [
    "\x7b",
    "  \"manifest_version\": 1,",
    "  \"name\": \"\x7b\x7bPLUGIN_DISPLAY_NAME\x7d\x7d\",",
    "  \"version\": \"\x7b\x7bPLUGIN_VERSION\x7d\x7d\",",
    "  \"description\": \"\x7b\x7bPLUGIN_DESCRIPTION\x7d\x7d\",",
    "  \"author\": \x7b",
    "    \"name\": \"\x7b\x7bPLUGIN_AUTHOR\x7d\x7d\"",
    "  \x7d,",
    "  \"license\": \"MIT\",",
    "  \"host_application\": \x7b",
    "    \"min_version\": \"0.8.0\"",
    "  \x7d,",
    "  \"keywords\": [\"js\", \"javascript\", \"bridge\"],",
    "  \"categories\": [\"Other\"],",
    "  \"plugin_info\": \x7b",
    "    \"is_built_in\": false,",
    "    \"plugin_type\": \"general\",",
    "    \"components\": []",
    "  \x7d",
    "\x7d",
    ""]

def script : File :=
  .ofLines "plugin.js" [
    "/**",
    " * \x7b\x7bPLUGIN_DISPLAY_NAME\x7d\x7d - JavaScript 插件",
    " *",
    " * 在这里用 JavaScript 编写你的插件逻辑！",
    " * 通过 mai 对象注册命令和行为，用 ctx 对象与麦麦交互。",
    " *",
    " * 作者：\x7b\x7bPLUGIN_AUTHOR\x7d\x7d",
    " * 版本：\x7b\x7bPLUGIN_VERSION\x7d\x7d",
    " */",
    "",
    "",
    "// ============================================================",
    "// 🚀 极简写法：固定文本回复（一行搞定）",
    "// ============================================================",
    "",
    "mai.reply('/\x7b\x7bPLUGIN_NAME\x7d\x7d', '🏓 Pong！\x7b\x7bPLUGIN_DISPLAY_NAME\x7d\x7d 正在运行！');",
    "",
    "",
    "// ============================================================",
    "// ⚡ 命令（Command）：响应用户输入",
    "// ============================================================",
    "",
    "// 写法 A：简洁箭头函数（推荐）",
    "mai.command(/^\\/echo\\s+(.+)$/, async (ctx) => \x7b",
    "  const text = ctx.match(1);          // 获取第 1 个正则捕获组",
    "  await ctx.send(`你说：$\x7btext\x7d`);",
    "\x7d);",
    "",
    "// 写法 B：带元数据的完整配置",
    "mai.command(\x7b",
    "  name: '\x7b\x7bPLUGIN_NAME\x7d\x7d_roll',",
    "  description: '掷骰子',",
    "  pattern: /^\\/roll(?:\\s+(\\d+))?$/,  // /roll 或 /roll 20",
    "",
    "  execute: async (ctx) => \x7b",
    "    const max = parseInt(ctx.match(1), 10) || 6;",
    "    const result = Math.floor(Math.random() * max) + 1;",
    "    await ctx.send(`🎲 你掷出了 $\x7bresult\x7d（1-$\x7bmax\x7d）`);",
    "    return \x7b success: true \x7d;",
    "  \x7d,",
    "\x7d);",
    "",
    "",
    "// ============================================================",
    "// 🤖 行为（Action）：麦麦自主触发",
    "// ============================================================",
    "",
    "mai.action(\x7b",
    "  name: '\x7b\x7bPLUGIN_NAME\x7d\x7d_greet',",
    "  description: '当有人打招呼时发送问候',",
    "",
    "  // 告诉 LLM 什么情况下触发这个行为",
    "  require: [",
    "    '当有人向你问好时',",
    "    '当对话开始时',",
    "  ],",
    "",
    "  // LLM 会提取并传入的参数（可选）",
    "  parameters: \x7b",
    "    user_name: '要问候的用户名字',",
    "  \x7d,",
    "",
    "  types: ['text'],",
    "",
    "  execute: async (ctx) => \x7b",
    "    const name = ctx.param('user_name', '朋友');  // ctx.param() 获取 LLM 参数",
    "    await ctx.send(`你好呀，$\x7bname\x7d！😊`);",
    "    return \x7b success: true \x7d;",
    "  \x7d,",
    "\x7d);",
    "",
    "",
    "// ============================================================",
    "// 💡 更多示例（取消注释即可使用）",
    "// ============================================================",
    "",
    "// 查询天气（需要 Node.js 18+ 内置 fetch）",
    "//",
    "// mai.command(/^\\/weather\\s+(\\S+)$/, async (ctx) => \x7b",
    "//   const city = ctx.match(1);",
    "//   try \x7b",
    "//     const res  = await fetch(`https://wttr.in/$\x7bcity\x7d?format=3`);",
    "//     const text = await res.text();",
    "//     await ctx.send(`🌤️ $\x7btext.trim()\x7d`);",
    "//   \x7d catch (err) \x7b",
    "//     await ctx.send(`❌ 查询失败：$\x7berr.message\x7d`);",
    "//   \x7d",
    "// \x7d);",
    "",
    "// 读取配置文件的值",
    "//",
    "// mai.command(/^\\/config$/, async (ctx) => \x7b",
    "//   const val = ctx.config('section.key', '默认值');",
    "//   await ctx.send(`当前配置：$\x7bval\x7d`);",
    "// \x7d);",
    ""]

def module : File :=
  .ofLines "plugin.py" [
    "\"\"\"",
    "\x7b\x7bPLUGIN_DISPLAY_NAME\x7d\x7d - JS Bridge 麦麦插件",
    "",
    "这是一个 JavaScript 桥接插件。核心逻辑写在 plugin.js 中，",
    "Python 层负责加载并桥接 JS 与 MaiBot API。",
    "",
    "作者：\x7b\x7bPLUGIN_AUTHOR\x7d\x7d",
    "版本：\x7b\x7bPLUGIN_VERSION\x7d\x7d",
    "",
    "【注意】本模板依赖 mai_js_bridge 模块，需要将其放在：",
    "  MaiBot/plugins/ 的父目录中，或者安装到 Python 环境。",
    "\"\"\"",
    "",
    "import sys",
    "import os",
    "from pathlib import Path",
    "from typing import List, Tuple, Type",
    "",
    "from src.plugin_system import BasePlugin, register_plugin, ComponentInfo",
    "",
    "# 将 mai_js_bridge 加入路径（如果尚未安装）",
    "_kit_path = Path(__file__).parent.parent.parent.parent",
    "if str(_kit_path) not in sys.path:",
    "    sys.path.insert(0, str(_kit_path))",
    "",
    "try:",
    "    from mai_js_bridge import JsBridgeLoader",
    "    _HAS_JS_BRIDGE = True",
    "except ImportError:",
    "    _HAS_JS_BRIDGE = False",
    "",
    "",
    "@register_plugin",
    "class \x7b\x7bPLUGIN_CLASS_NAME\x7d\x7d(BasePlugin):",
    "    \"\"\"\x7b\x7bPLUGIN_DISPLAY_NAME\x7d\x7d JS 桥接插件主类\"\"\"",
    "",
    "    plugin_name = \"\x7b\x7bPLUGIN_NAME\x7d\x7d\"",
    "    enable_plugin = True",
    "    dependencies: List[str] = []",
    "    python_dependencies: List[str] = []",
    "    config_file_name = \"config.toml\"",
    "    config_schema: dict = \x7b\x7d",
    "",
    "    # JS 插件文件路径（相对于当前目录）",
    "    _js_file = Path(__file__).parent / \"plugin.js\"",
    "",
    "    def __init__(self, *args, **kwargs):",
    "        super().__init__(*args, **kwargs)",
    "        self._bridge: \"JsBridgeLoader | None\" = None",
    "",
    "    def get_plugin_components(self) -> List[Tuple[ComponentInfo, Type]]:",
    "        \"\"\"加载 JS 文件中定义的组件\"\"\"",
    "        if not _HAS_JS_BRIDGE:",
    "            import logging",
    "            logging.warning(",
    "                f\"[\x7b\x7bPLUGIN_CLASS_NAME\x7d\x7d] mai_js_bridge 未安装，JS 插件无法加载。\"",
    "                f\"请确保 MaiBot-Plugin-Kit 目录存在并可访问。\"",
    "            )",
    "            return []",
    "",
    "        if not self._js_file.exists():",
    "            import logging",
    "            logging.warning(f\"[\x7b\x7bPLUGIN_CLASS_NAME\x7d\x7d] plugin.js 不存在：\x7bself._js_file\x7d\")",
    "            return []",
    "",
    "        # 创建 JS 桥接器并加载 JS 插件",
    "        self._bridge = JsBridgeLoader(str(self._js_file), plugin_name=self.plugin_name)",
    "        components = self._bridge.get_components()",
    "        return components",
    ""]

def files : List File := [readme, manifest, script, module]

end PluginKit.Template.Bridge
