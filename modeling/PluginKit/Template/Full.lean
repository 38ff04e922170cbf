import PluginKit.Template.File

/-!
# The full template

A plugin with an action, a command, a tool and event handlers, and a module of functions that they
share.
-/

namespace PluginKit.Template.Full

def manifest : File :=
  .ofLines "_manifest.json" [
    "\x7b",
    "  \"manifest_version\": 1,",
    "  \"name\": \"\x7b\x7bPLUGIN_DISPLAY_NAME\x7d\x7d\",",
    "  \"version\": \"\x7b\x7bPLUGIN_VERSION\x7d\x7d\",",
    "  \"description\": \"\x7b\x7bPLUGIN_DESCRIPTION\x7d\x7d\",",
    "  \"author\": \x7b",
    "    \"name\": \"\x7b\x7bPLUGIN_AUTHOR\x7d\x7d\"",
    "  \x7d,",
    "  \"license\": \"MIT\",",
    "  \"host_application\": \x7b",
    "    \"min_version\": \"0.8.0\"",
    "  \x7d,",
    "  \"keywords\": [\"full\", \"action\", \"command\", \"tool\"],",
    "  \"categories\": [\"Other\"],",
    "  \"plugin_info\": \x7b",
    "    \"is_built_in\": false,",
    "    \"plugin_type\": \"general\",",
    "    \"components\": [",
    "      \x7b",
    "        \"type\": \"action\",",
    "        \"name\": \"\x7b\x7bPLUGIN_NAME\x7d\x7d_action\",",
    "        \"description\": \"\x7b\x7bPLUGIN_DESCRIPTION\x7d\x7d Action\"",
    "      \x7d,",
    "      \x7b",
    "        \"type\": \"command\",",
    "        \"name\": \"\x7b\x7bPLUGIN_NAME\x7d\x7d_command\",",
    "        \"description\": \"\x7b\x7bPLUGIN_DESCRIPTION\x7d\x7d Command\"",
    "      \x7d,",
    "      \x7b",
    "        \"type\": \"tool\",",
    "        \"name\": \"\x7b\x7bPLUGIN_NAME\x7d\x7d_tool\",",
    "        \"description\": \"\x7b\x7bPLUGIN_DESCRIPTION\x7d\x7d Tool\"",
    "      \x7d",
    "    ]",
    "  \x7d",
    "\x7d",
    ""]

def module : File :=
  .ofLines "plugin.py" [
    "\"\"\"",
    "\x7b\x7bPLUGIN_DISPLAY_NAME\x7d\x7d - 完整功能插件",
    "",
    "\x7b\x7bPLUGIN_DESCRIPTION\x7d\x7d",
    "",
    "作者：\x7b\x7bPLUGIN_AUTHOR\x7d\x7d",
    "版本：\x7b\x7bPLUGIN_VERSION\x7d\x7d",
    "",
    "包含所有组件类型：Action / Command / Tool / EventHandler",
    "删除不需要的部分即可。",
    "\"\"\"",
    "",
    "from typing import Any, Dict, List, Optional, Tuple, Type",
    "",
    "from src.plugin_system import (",
    "    BasePlugin,",
    "    register_plugin,",
    "    BaseAction,",
    "    BaseCommand,",
    "    BaseTool,",
    "    BaseEventHandler,",
    "    ComponentInfo,",
    "    ActionActivationType,",
    "    ConfigField,",
    "    EventType,",
    "    MaiMessages,",
    "    ToolParamType,",
    ")",
    "from src.common.logger import get_logger",
    "",
    "logger = get_logger(\"\x7b\x7bPLUGIN_NAME\x7d\x7d\")",
    "",
    "",
    "# ═══════════════════════════════════════════════",
    "#  Action 组件：由麦麦自主决策是否触发",
    "# ═══════════════════════════════════════════════",
    "",
    "class \x7b\x7bACTION_CLASS_NAME\x7d\x7d(BaseAction):",
    "    \"\"\"主动行为组件\"\"\"",
    "",
    "    action_name = \"\x7b\x7bPLUGIN_NAME\x7d\x7d_action\"",
    "    action_description = \"\x7b\x7bPLUGIN_DESCRIPTION\x7d\x7d\"",
    "    activation_type = ActionActivationType.RANDOM",
    "    random_activation_probability = 0.2",
    "",
    "    action_require = [",
    "        \"当场景适合时使用\",",
    "        \"不要连续频繁触发\",",
    "    ]",
    "    associated_types = [\"text\"]",
    "    action_parameters = \x7b",
    "        \"content\": \"要发送的内容描述\",",
    "        \"reason\": \"触发原因\",",
    "    \x7d",
    "    parallel_action = False",
    "",
    "    async def execute(self) -> Tuple[bool, str]:",
    "        content = self.action_data.get(\"content\", \"\")",
    "        message = self.get_config(\"action.message\", \"你好！\")",
    "",
    "        logger.info(f\"[\x7b\x7bPLUGIN_NAME\x7d\x7d] Action 触发，user=\x7bself.user_nickname\x7d\")",
    "        await self.send_text(message)",
    "",
    "        await self.store_action_info(",
    "            action_build_into_prompt=True,",
    "            action_prompt_display=f\"执行了 \x7b\x7bPLUGIN_NAME\x7d\x7d 行为\",",
    "            action_done=True,",
    "        )",
    "        return True, \"Action 执行成功\"",
    "",
    "",
    "# ═══════════════════════════════════════════════",
    "#  Command 组件：用户输入命令时触发",
    "# ═══════════════════════════════════════════════",
    "",
    "class \x7b\x7bCOMMAND_CLASS_NAME\x7d\x7d(BaseCommand):",
    "    \"\"\"命令响应组件\"\"\"",
    "",
    "    command_name = \"\x7b\x7bPLUGIN_NAME\x7d\x7d\"",
    "    command_description = \"\x7b\x7bPLUGIN_DESCRIPTION\x7d\x7d\"",
    "    # 使用命名捕获组提取参数：(?P<param_name>regex)",
    "    command_pattern = r\"^/\x7b\x7bPLUGIN_NAME\x7d\x7d(?:\\s+(?P<param>.+))?$\"",
    "",
    "    async def execute(self) -> Tuple[bool, Optional[str], bool]:",
    "        param = self.matched_groups.get(\"param\", \"\")",
    "        reply = self.get_config(\"command.reply\", \"收到！\")",
    "",
    "        logger.info(f\"[\x7b\x7bPLUGIN_NAME\x7d\x7d] Command 触发，param=\x7bparam\x7d\")",
    "        await self.send_text(f\"\x7breply\x7d（参数：\x7bparam\x7d）\" if param else reply)",
    "",
    "        return True, \"Command 执行成功\", True",
    "",
    "",
    "# ═══════════════════════════════════════════════",
    "#  Tool 组件：供 LLM 在生成回复时调用",
    "# ═══════════════════════════════════════════════",
    "",
    "class \x7b\x7bTOOL_CLASS_NAME\x7d\x7d(BaseTool):",
    "    \"\"\"工具组件 - LLM 可调用\"\"\"",
    "",
    "    name = \"\x7b\x7bPLUGIN_NAME\x7d\x7d_tool\"",
    "    description = \"工具功能描述，帮助 LLM 理解何时调用\"",
    "    parameters = [",
    "        # (参数名, 类型, 描述, 是否必须, 默认值)",
    "        (\"input\", ToolParamType.STRING, \"输入内容\", True, None),",
    "    ]",
    "    available_for_llm = True",
    "",
    "    async def execute(self, function_args: Dict[str, Any]) -> Dict[str, Any]:",
    "        \"\"\"Tool 执行逻辑，返回 \x7b\"name\": self.name, \"content\": 结果字符串\x7d\"\"\"",
    "        input_val = function_args.get(\"input\", \"\")",
    "        result = f\"处理结果：\x7binput_val\x7d\"",
    "        return \x7b\"name\": self.name, \"content\": result\x7d",
    "",
    "",
    "# ═══════════════════════════════════════════════",
    "#  EventHandler 组件：监听系统事件",
    "# ═══════════════════════════════════════════════",
    "",
    "class \x7b\x7bHANDLER_CLASS_NAME\x7d\x7dStart(BaseEventHandler):",
    "    \"\"\"",
    "    启动事件处理器 - MaiBot 启动时执行一次",
    "",
    "    event_type 可选：",
    "    - EventType.ON_START    : 启动时触发（初始化资源）",
    "    - EventType.ON_STOP     : 停止时触发（清理资源）",
    "    - EventType.ON_MESSAGE  : 每条消息触发",
    "    \"\"\"",
    "",
    "    event_type = EventType.ON_START",
    "    handler_name = \"\x7b\x7bPLUGIN_NAME\x7d\x7d_start\"",
    "    handler_description = \"启动初始化处理器\"",
    "",
    "    async def execute(self, message: Optional[Any]) -> Tuple[bool, bool, Optional[str], None, None]:",
    "        \"\"\"ON_START 时 message 为 None\"\"\"",
    "        logger.info(f\"[\x7b\x7bPLUGIN_NAME\x7d\x7d] 插件已启动，执行初始化...\")",
    "        return True, True, None, None, None",
    "",
    "",
    "class \x7b\x7bHANDLER_CLASS_NAME\x7d\x7d(BaseEventHandler):",
    "    \"\"\"消息事件处理器 - 每条消息触发\"\"\"",
    "",
    "    event_type = EventType.ON_MESSAGE",
    "    handler_name = \"\x7b\x7bPLUGIN_NAME\x7d\x7d_handler\"",
    "    handler_description = \"消息事件处理器\"",
    "",
    "    async def execute(self, message: Optional[MaiMessages]) -> Tuple[bool, bool, Optional[str], None, None]:",
    "        \"\"\"",
    "        返回 (是否成功, 是否继续传递, 日志, None, None)",
    "        第二个值为 False 时拦截该消息，不再传给其他 Handler。",
    "        \"\"\"",
    "        if not message:",
    "            return True, True, None, None, None",
    "",
    "        # logger.debug(f\"[\x7b\x7bPLUGIN_NAME\x7d\x7d] 收到消息: \x7bmessage.plain_text\x7d\")",
    "",
    "        return True, True, None, None, None",
    "",
    "",
    "# ═══════════════════════════════════════════════",
    "#  插件注册",
    "# ═══════════════════════════════════════════════",
    "",
    "@register_plugin",
    "class \x7b\x7bPLUGIN_CLASS_NAME\x7d\x7d(BasePlugin):",
    "    \"\"\"\x7b\x7bPLUGIN_DESCRIPTION\x7d\x7d\"\"\"",
    "",
    "    plugin_name: str = \"\x7b\x7bPLUGIN_NAME\x7d\x7d\"",
    "    enable_plugin: bool = True",
    "    dependencies: List[str] = []",
    "    python_dependencies: List[str] = []",
    "    config_file_name: str = \"config.toml\"",
    "",
    "    config_section_descriptions = \x7b",
    "        \"plugin\": \"插件基本配置\",",
    "        \"action\": \"Action 行为配置\",",
    "        \"command\": \"Command 命令配置\",",
    "    \x7d",
    "",
    "    config_schema: dict = \x7b",
    "        \"plugin\": \x7b",
    "            \"enabled\": ConfigField(type=bool, default=True, description=\"是否启用插件\"),",
    "            \"config_version\": ConfigField(type=str, default=\"\x7b\x7bPLUGIN_VERSION\x7d\x7d\", description=\"配置版本\"),",
    "        \x7d,",
    "        \"action\": \x7b",
    "            \"message\": ConfigField(type=str, default=\"你好！\", description=\"Action 发送的消息\"),",
    "        \x7d,",
    "        \"command\": \x7b",
    "            \"reply\": ConfigField(type=str, default=\"收到！\", description=\"命令回复前缀\"),",
    "        \x7d,",
    "    \x7d",
    "",
    "    def get_plugin_components(self) -> List[Tuple[ComponentInfo, Type]]:",
    "        return [",
    "            (\x7b\x7bACTION_CLASS_NAME\x7d\x7d.get_action_info(), \x7b\x7bACTION_CLASS_NAME\x7d\x7d),",
    "            (\x7b\x7bCOMMAND_CLASS_NAME\x7d\x7d.get_command_info(), \x7b\x7bCOMMAND_CLASS_NAME\x7d\x7d),",
    "            (\x7b\x7bTOOL_CLASS_NAME\x7d\x7d.get_tool_info(), \x7b\x7bTOOL_CLASS_NAME\x7d\x7d),",
    "            (\x7b\x7bHANDLER_CLASS_NAME\x7d\x7dStart.get_handler_info(), \x7b\x7bHANDLER_CLASS_NAME\x7d\x7dStart),",
    "            (\x7b\x7bHANDLER_CLASS_NAME\x7d\x7d.get_handler_info(), \x7b\x7bHANDLER_CLASS_NAME\x7d\x7d),",
    "        ]",
    ""]

def sharedFunctions : File :=
  .ofLines "utils.py" [
    "\"\"\"",
    "\x7b\x7bPLUGIN_DISPLAY_NAME\x7d\x7d 工具函数模块",
    "",
    "将通用功能抽取到这里，避免 plugin.py 过于臃肿。",
    "\"\"\"",
    "",
    "import asyncio",
    "import datetime",
    "from typing import Optional, Dict, Any",
    "",
    "",
    "def format_time(timestamp: Optional[float] = None, fmt: str = \"%Y-%m-%d %H:%M:%S\") -> str:",
    "    \"\"\"格式化时间戳为字符串\"\"\"",
    "    if timestamp is None:",
    "        dt = datetime.datetime.now()",
    "    else:",
    "        dt = datetime.datetime.fromtimestamp(timestamp)",
    "    return dt.strftime(fmt)",
    "",
    "",
    "def truncate_text(text: str, max_len: int = 100, suffix: str = \"...\") -> str:",
    "    \"\"\"截断过长的文本\"\"\"",
    "    if len(text) <= max_len:",
    "        return text",
    "    return text[: max_len - len(suffix)] + suffix",
    "",
    "",
    "async def safe_http_get(url: str, timeout: int = 10) -> Optional[Dict[str, Any]]:",
    "    \"\"\"",
    "    安全的 HTTP GET 请求（需要安装 aiohttp）",
    "    ",
    "    使用前请在 plugin.py 的 python_dependencies 中添加 \"aiohttp\"",
    "    \"\"\"",
    "    try:",
    "        import aiohttp",
    "        async with aiohttp.ClientSession() as session:",
    "            async with session.get(url, timeout=aiohttp.ClientTimeout(total=timeout)) as resp:",
    "                if resp.status == 200:",
    "                    return await resp.json()",
    "                return None",
    "    except ImportError:",
    "        raise ImportError(\"请先安装 aiohttp：pip install aiohttp\")",
    "    except Exception as e:",
    "        return None",
    ""]

def files : List File := [manifest, module, sharedFunctions]

end PluginKit.Template.Full
