import PluginKit.Template.File

/-!
# The minimal template

The smallest plugin: a manifest, a module that registers nothing yet, and a read-me file.
-/

namespace PluginKit.Template.Minimal

def readme : File :=
  .ofLines "README.md" [
    "# \x7b\x7bPLUGIN_DISPLAY_NAME\x7d\x7d",
    "",
    "\x7b\x7bPLUGIN_DESCRIPTION\x7d\x7d",
    "",
    "## 作者",
    "",
    "\x7b\x7bPLUGIN_AUTHOR\x7d\x7d",
    "",
    "## 版本",
    "",
    "\x7b\x7bPLUGIN_VERSION\x7d\x7d",
    "",
    "## 安装",
    "",
    "将本目录复制到 MaiBot 的 `plugins/` 目录下，重启 MaiBot 即可。",
    "",
    "```",
    "MaiBot/",
    "└── plugins/",
    "    └── \x7b\x7bPLUGIN_NAME\x7d\x7d/",
    "        ├── _manifest.json",
    "        ├── plugin.py",
    "        └── README.md",
    "```",
    "",
    "## 开发指南",
    "",
    "### 添加 Action（麦麦自主行为）",
    "",
    "```python",
    "from src.plugin_system import BaseAction, ActionActivationType",
    "",
    "class MyAction(BaseAction):",
    "    action_name = \"my_action\"",
    "    action_description = \"描述这个行为的作用\"",
    "    activation_type = ActionActivationType.ALWAYS",
    "    action_parameters = \x7b\"param1\": \"参数说明\"\x7d",
    "    action_require = [\"需要这个行为时使用\"]",
    "    associated_types = [\"text\"]",
    "",
    "    async def execute(self):",
    "        await self.send_text(\"Hello from my action!\")",
    "        return True, \"执行成功\"",
    "```",
    "",
    "### 添加 Command（响应用户命令）",
    "",
    "```python",
    "from src.plugin_system import BaseCommand",
    "",
    "class MyCommand(BaseCommand):",
    "    command_name = \"my_command\"",
    "    command_description = \"命令描述\"",
    "    command_pattern = r\"^/mycommand$\"",
    "",
    "    async def execute(self):",
    "        await self.send_text(\"执行了命令！\")",
    "        return True, \"成功\", True",
    "```",
    "",
    "## 参考文档",
    "",
    "- [完整 API 文档](https://maibot-plugin-kit.pages.dev/)",
    "- [MaiBot 官方文档](https://docs.mai-mai.org/)",
    "- [插件示例仓库](https://github.com/Mai-with-u/plugin-repo)",
    ""]

def manifest : File :=
  .ofLines "_manifest.json" [
    "\x7b",
    "  \"manifest_version\": 1,",
    "  \"name\": \"\x7b\x7bPLUGIN_DISPLAY_NAME\x7d\x7d\",",
    "  \"version\": \"\x7b\x7bPLUGIN_VERSION\x7d\x7d\",",
    "  \"description\": \"\x7b\x7bPLUGIN_DESCRIPTION\x7d\x7d\",",
    "  \"author\": \x7b",
    "    \"name\": \"\x7b\x7bPLUGIN_AUTHOR\x7d\x7d\"",
    "  \x7d,",
    "  \"license\": \"MIT\",",
    "  \"host_application\": \x7b",
    "    \"min_version\": \"0.8.0\"",
    "  \x7d,",
    "  \"keywords\": [],",
    "  \"categories\": [\"Other\"],",
    "  \"plugin_info\": \x7b",
    "    \"is_built_in\": false,",
    "    \"plugin_type\": \"general\",",
    "    \"components\": []",
    "  \x7d",
    "\x7d",
    ""]

def module : File :=
  .ofLines "plugin.py" [
    "\"\"\"",
    "\x7b\x7bPLUGIN_DISPLAY_NAME\x7d\x7d - 最简骨架插件",
    "",
    "\x7b\x7bPLUGIN_DESCRIPTION\x7d\x7d",
    "",
    "作者：\x7b\x7bPLUGIN_AUTHOR\x7d\x7d",
    "版本：\x7b\x7bPLUGIN_VERSION\x7d\x7d",
    "\"\"\"",
    "",
    "from typing import List, Tuple, Type",
    "",
    "from src.plugin_system import (",
    "    BasePlugin,",
    "    register_plugin,",
    "    ComponentInfo,",
    "    ConfigField,",
    ")",
    "from src.common.logger import get_logger",
    "",
    "logger = get_logger(\"\x7b\x7bPLUGIN_NAME\x7d\x7d\")",
    "",
    "",
    "@register_plugin",
    "class \x7b\x7bPLUGIN_CLASS_NAME\x7d\x7d(BasePlugin):",
    "    \"\"\"\x7b\x7bPLUGIN_DESCRIPTION\x7d\x7d\"\"\"",
    "",
    "    plugin_name: str = \"\x7b\x7bPLUGIN_NAME\x7d\x7d\"",
    "    enable_plugin: bool = True",
    "    dependencies: List[str] = []",
    "    python_dependencies: List[str] = []",
    "    config_file_name: str = \"config.toml\"",
    "",
    "    config_section_descriptions = \x7b",
    "        \"plugin\": \"插件基本配置\",",
    "    \x7d",
    "",
    "    config_schema: dict = \x7b",
    "        \"plugin\": \x7b",
    "            \"enabled\": ConfigField(type=bool, default=True, description=\"是否启用插件\"),",
    "            \"config_version\": ConfigField(type=str, default=\"\x7b\x7bPLUGIN_VERSION\x7d\x7d\", description=\"配置版本\"),",
    "        \x7d,",
    "    \x7d",
    "",
    "    def get_plugin_components(self) -> List[Tuple[ComponentInfo, Type]]:",
    "        \"\"\"返回插件组件列表（在这里注册你的 Action / Command / Tool）\"\"\"",
    "        return []",
    ""]

def files : List File := [readme, manifest, module]

end PluginKit.Template.Minimal
