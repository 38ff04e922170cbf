import PluginKit.Template.File

/-!
# The action template

A plugin with one action, which the bot takes when it finds it fitting.
-/

namespace PluginKit.Template.Action

def manifest : File :=
  .ofLines "_manifest.json" [
    "\x7b",
    "  \"manifest_version\": 1,",
    "  \"name\": \"\x7b\x7bPLUGIN_DISPLAY_NAME\x7d\x7d\",",
    "  \"version\": \"\x7b\x7bPLUGIN_VERSION\x7d\x7d\",",
    "  \"description\": \"\x7b\x7bPLUGIN_DESCRIPTION\x7d\x7d\",",
    "  \"author\": \x7b",
    "    \"name\": \"\x7b\x7bPLUGIN_AUTHOR\x7d\x7d\"",
    "  \x7d,",
    "  \"license\": \"MIT\",",
    "  \"host_application\": \x7b",
    "    \"min_version\": \"0.8.0\"",
    "  \x7d,",
    "  \"keywords\": [\"action\"],",
    "  \"categories\": [\"Entertainment & Interaction\"],",
    "  \"plugin_info\": \x7b",
    "    \"is_built_in\": false,",
    "    \"plugin_type\": \"general\",",
    "    \"components\": [",
    "      \x7b",
    "        \"type\": \"action\",",
    "        \"name\": \"\x7b\x7bPLUGIN_NAME\x7d\x7d_action\",",
    "        \"description\": \"\x7b\x7bPLUGIN_DESCRIPTION\x7d\x7d\"",
    "      \x7d",
    "    ]",
    "  \x7d",
    "\x7d",
    ""]

def module : File :=
  .ofLines "plugin.py" [
    "\"\"\"",
    "\x7b\x7bPLUGIN_DISPLAY_NAME\x7d\x7d - Action 插件",
    "",
    "\x7b\x7bPLUGIN_DESCRIPTION\x7d\x7d",
    "",
    "作者：\x7b\x7bPLUGIN_AUTHOR\x7d\x7d",
    "版本：\x7b\x7bPLUGIN_VERSION\x7d\x7d",
    "",
    "Action 由麦麦的决策系统自主选择是否使用，无需用户输入命令。",
    "适合：主动问候、情绪反应、主动分享内容、添加表情包等场景。",
    "\"\"\"",
    "",
    "from typing import List, Tuple, Type",
    "",
    "from src.plugin_system import (",
    "    BasePlugin,",
    "    register_plugin,",
    "    BaseAction,",
    "    ComponentInfo,",
    "    ActionActivationType,",
    "    ConfigField,",
    ")",
    "from src.common.logger import get_logger",
    "",
    "logger = get_logger(\"\x7b\x7bPLUGIN_NAME\x7d\x7d\")",
    "",
    "",
    "class \x7b\x7bACTION_CLASS_NAME\x7d\x7d(BaseAction):",
    "    \"\"\"",
    "    Action 组件 - 在合适的时机由麦麦自主触发",
    "",
    "    activation_type 控制此 Action 何时进入决策候选池：",
    "    - ActionActivationType.ALWAYS   : 始终在候选池中（核心功能用）",
    "    - ActionActivationType.RANDOM   : 按概率进入候选池（需设置 random_activation_probability）",
    "    - ActionActivationType.KEYWORD  : 检测到关键词时进入（需设置 activation_keywords）",
    "    - ActionActivationType.NEVER    : 永不激活（调试/禁用用）",
    "    \"\"\"",
    "",
    "    action_name = \"\x7b\x7bPLUGIN_NAME\x7d\x7d_action\"",
    "    action_description = \"\x7b\x7bPLUGIN_DESCRIPTION\x7d\x7d\"",
    "",
    "    activation_type = ActionActivationType.RANDOM",
    "    random_activation_probability = 0.3      # 30% 概率进入候选池",
    "",
    "    # activation_type = ActionActivationType.KEYWORD",
    "    # activation_keywords = [\"关键词1\", \"关键词2\"]",
    "    # keyword_case_sensitive = False",
    "",
    "    # 帮助 LLM 决定何时选用此 Action",
    "    action_require = [",
    "        \"在合适的场景使用\",",
    "        \"不要频繁使用\",",
    "    ]",
    "",
    "    # 此 Action 会发送哪些类型的消息",
    "    # 可选: \"text\" \"emoji\" \"image\" \"reply\" \"voice\" \"command\" \"voiceurl\" \"music\" \"videourl\" \"file\"",
    "    associated_types = [\"text\"]",
    "",
    "    # LLM 调用此 Action 时会传入的参数（LLM 根据描述自动生成参数值）",
    "    action_parameters = \x7b",
    "        \"content\": \"要发送的内容\",",
    "        \"reason\": \"触发原因\",",
    "    \x7d",
    "",
    "    parallel_action = False",
    "",
    "    async def execute(self) -> Tuple[bool, str]:",
    "        \"\"\"",
    "        Action 核心执行逻辑",
    "",
    "        常用属性：",
    "            self.action_data      : LLM 传入的参数字典",
    "            self.user_nickname    : 触发者昵称",
    "            self.group_id         : 群号（群聊时有效）",
    "            self.user_id          : 用户 QQ 号",
    "            self.chat_stream      : ChatStream 对象",
    "            self.is_group         : 是否群聊",
    "            self.chat_id          : 聊天流 ID（即 stream_id，用于 send_api 等）",
    "",
    "        常用方法：",
    "            await self.send_text(content)",
    "            await self.send_emoji(emoji_base64)",
    "            await self.send_image(image_base64)",
    "            await self.store_action_info(action_build_into_prompt=True, action_prompt_display=\"...\", action_done=True)",
    "            self.get_config(\"section.key\", default_value)",
    "        \"\"\"",
    "        content = self.action_data.get(\"content\", \"\")",
    "        message_template = self.get_config(\"action.message\", \"\x7b\x7bPLUGIN_DESCRIPTION\x7d\x7d\")",
    "",
    "        logger.info(f\"[\x7b\x7bPLUGIN_NAME\x7d\x7d] Action 执行，user=\x7bself.user_nickname\x7d\")",
    "",
    "        await self.send_text(message_template)",
    "",
    "        await self.store_action_info(",
    "            action_build_into_prompt=True,",
    "            action_prompt_display=f\"执行了 \x7b\x7bPLUGIN_NAME\x7d\x7d 动作\",",
    "            action_done=True,",
    "        )",
    "",
    "        return True, \"执行成功\"",
    "",
    "",
    "@register_plugin",
    "class \x7b\x7bPLUGIN_CLASS_NAME\x7d\x7d(BasePlugin):",
    "    \"\"\"\x7b\x7bPLUGIN_DESCRIPTION\x7d\x7d\"\"\"",
    "",
    "    plugin_name: str = \"\x7b\x7bPLUGIN_NAME\x7d\x7d\"",
    "    enable_plugin: bool = True",
    "    dependencies: List[str] = []",
    "    python_dependencies: List[str] = []",
    "    config_file_name: str = \"config.toml\"",
    "",
    "    config_section_descriptions = \x7b",
    "        \"plugin\": \"插件基本配置\",",
    "        \"action\": \"Action 行为配置\",",
    "    \x7d",
    "",
    "    config_schema: dict = \x7b",
    "        \"plugin\": \x7b",
    "            \"enabled\": ConfigField(type=bool, default=True, description=\"是否启用插件\"),",
    "            \"config_version\": ConfigField(type=str, default=\"\x7b\x7bPLUGIN_VERSION\x7d\x7d\", description=\"配置版本\"),",
    "        \x7d,",
    "        \"action\": \x7b",
    "            \"message\": ConfigField(type=str, default=\"\x7b\x7bPLUGIN_DESCRIPTION\x7d\x7d\", description=\"Action 发送的消息模板\"),",
    "        \x7d,",
    "    \x7d",
    "",
    "    def get_plugin_components(self) -> List[Tuple[ComponentInfo, Type]]:",
    "        return [",
    "            (\x7b\x7bACTION_CLASS_NAME\x7d\x7d.get_action_info(), \x7b\x7bACTION_CLASS_NAME\x7d\x7d),",
    "        ]",
    ""]

def files : List File := [manifest, module]

end PluginKit.Template.Action
