import PluginKit.Package.Code
import PluginKit.Role
import PluginKit.Script.Name
import PluginKit.Value.Access

/-!
# Classes of components

Every command and every action of a plugin becomes a class with a few attributes and an `execute` method.
What the method does depends on the type of the component: it sends a reply, runs the code of the script,
shows a fetched page or passes on what a language model answers. A component of any other type has an empty
method.

The component is given as a value, and the order in which its fields are read decides which of several
missing or unsuitable fields is reported.
-/

namespace PluginKit.Package

open Value (str)

inductive Trigger where
  | command (matchText pattern : Text)
  | action (parameters triggers types : Text)
  deriving DecidableEq, Repr

def Trigger.role : Trigger → Role
  | command _ _ => .command
  | action _ _ _ => .action

structure ComponentClass where
  className : Text
  title : Text
  componentName : Text
  description : Text
  trigger : Trigger
  body : List Line
  deriving DecidableEq, Repr

namespace ComponentClass

def role (c : ComponentClass) : Role := c.trigger.role

def attributeLines (c : ComponentClass) : List Line :=
  match c.trigger with
  | .command matchText pattern =>
    [.code 0 ("# ---- Command: " ++ c.title ++ " ----"),
      .code 0 ("class " ++ c.className ++ "(BaseCommand):"),
      .code 1 ("\"\"\"响应命令：" ++ c.title ++ "（" ++ matchText ++ "）\"\"\""),
      .assign 1 "command_name" (.quoted c.componentName),
      .assign 1 "command_description" (.quoted c.description),
      .assign 1 "command_pattern" (.raw pattern)]
  | .action parameters triggers types =>
    [.code 0 ("# ---- Action: " ++ c.title ++ " ----"),
      .code 0 ("class " ++ c.className ++ "(BaseAction):"),
      .code 1 ("\"\"\"Action：" ++ c.title ++ "\"\"\""),
      .assign 1 "action_name" (.quoted c.componentName),
      .assign 1 "action_description" (.quoted c.description),
      .assign 1 "activation_type" (.plain "ActionActivationType.ALWAYS"),
      .assign 1 "action_parameters" (.plain parameters),
      .assign 1 "action_require" (.plain triggers),
      .assign 1 "associated_types" (.plain types)]

def methodHead (c : ComponentClass) : Line :=
  match c.role with
  | .command => .code 1 "async def execute(self) -> Tuple[bool, Optional[str], bool]:"
  | .action => .code 1 "async def execute(self) -> Tuple[bool, str]:"

def lines (c : ComponentClass) : List Line :=
  c.attributeLines ++ [.blank, c.methodHead] ++ c.body

end ComponentClass

def componentClassName (start : Text) (role : Role) (internalName : Text) : Text :=
  match role with
  | .command => start ++ "Cmd" ++ Script.className internalName
  | .action => start ++ "Act" ++ Script.className internalName

/-! ### Fields of a component -/

/-- The description of a component, which is its name if it has none. -/
def descriptionOf (component name : Value) : Outcome Value :=
  component.get "description" name

def codeLines : Value → Outcome (List Text)
  | .str s => .ok (Text.splitOn '\n' (Text.trim Text.isBlank s))
  | .bytes _ => .error (.misuse .textForBytes)
  | v => .error (.noMember v.kind "strip")

/-- The address to fetch: that of a request with fields, or the request itself as text. -/
def requestUrl (v : Value) : Outcome Value :=
  match v.view with
  | .dict entries => .ok ((Value.field? "url" entries).getD (str ""))
  | _ => v.display.map str

def templateText : Value → Outcome Text
  | .str s => .ok s
  | .bytes _ => .error (.misuse .textForBytes)
  | .date _ => .error (.misuse .textForNumber)
  | .datetime _ => .error (.misuse .textForNumber)
  | v => .error (.noMember v.kind "replace")

def pageReply : Value := str "\x7bhttp_response\x7d"

/-! ### Bodies shared by both roles -/

def fetchLines (url : Text) : List Line :=
  [.assign 3 "url" (.template url),
    .code 3 "async with aiohttp.ClientSession() as session:",
    .code 4 ("async with session.get(url, timeout=aiohttp.ClientTimeout(total=10)) as resp:"),
    .assign 5 "http_response" (.plain "await resp.text()")]

def promptLines (holder prompt : Text) : List Line :=
  [.code 2 "try:",
    .code 3 "from src.plugin_system.apis import generator_api",
    .assign 3 holder (.longTemplate prompt),
    .code 3 "success, reply_set, _ = await generator_api.generate_reply(",
    .code 4 "chat_stream=self.message.chat_stream,",
    .code 4 ("extra_info=" ++ holder ++ ","),
    .code 3 ")",
    .code 3 "if success:",
    .code 4 "for reply_type, reply_content in reply_set:",
    .code 5 "if reply_type == \"text\":",
    .send 6 (.plain "reply_content")]

def scriptLines (className : Text) (code : List Text) : List Line :=
  [.code 2 "try:"] ++ code.map (.code 3) ++
    [.code 3 "if \"reply\" in dir():",
      .send 4 (.plain "str(reply)"),
      .code 2 "except Exception as e:",
      .code 3 ("logger.error(f\"[" ++ className ++ "] 执行失败：\x7be\x7d\")")]

def failureLine (what : Text) : Line :=
  .send 3 (.template ("❌ " ++ what ++ "失败：\x7bstr(e)\x7d"))

/-! ### Commands -/

/-- The lines of a command's method before its last one. -/
def commandBody (className : Text) (command : Value) : Outcome (List Line) := do
  let type ← command.get "type" (str "reply")
  if type.isStr "reply" then
    let reply ← command.item "reply"
    return replyLines 2 (← reply.text)
  else if type.isStr "python" then
    let code ← codeLines (← command.item "python")
    return scriptLines className code ++ [failureLine "执行"]
  else if type.isStr "http_get" then
    let url ← requestUrl (← command.item "http_get")
    let template ← command.get "reply" pageReply
    let url ← url.text
    let reply ← templateText template
    return [⟨2, .unlessHttp⟩,
        .send 3 (.quoted "❌ 此功能需要安装 aiohttp：pip install aiohttp"),
        .code 3 "return False, \"缺少 aiohttp\", True",
        .code 2 "try:",
        .code 3 "# 处理 URL 中的参数"] ++
      (variablesIn url).map (captureLine 3) ++ fetchLines url ++
      [.send 3 (.template reply),
        .code 2 "except Exception as e:",
        failureLine "请求",
        .code 3 "return False, str(e), True"]
  else if type.isStr "llm_prompt" then
    let prompt ← command.item "llm_prompt"
    return promptLines "prompt_text" (← prompt.display) ++
      [.code 2 "except Exception as e:",
        failureLine "生成",
        .code 3 "return False, str(e), True"]
  else return []

def commandClass (start : Text) (command : Value) : Outcome ComponentClass := do
  let internalName ← (← command.item "internal_name").text
  let name ← command.item "name"
  let title ← name.display
  let matchText ← (← command.item "match").display
  let description ← (← descriptionOf command name).display
  let pattern ← (← command.item "pattern").display
  let className := componentClassName start .command internalName
  let body ← commandBody className command
  return { className := className
           title := title
           componentName := internalName
           description := description
           trigger := .command matchText pattern
           body := body ++ [.code 2 ("return True, \"" ++ title ++ " 执行成功\", True")] }

/-! ### Actions -/

/-- The lines of an action's method after its parameters are read. -/
def actionBody (className : Text) (name : Text) (action : Value) : Outcome (List Line) := do
  let done : Line := .code 2 ("return True, \"" ++ name ++ " 执行成功\"")
  let type ← action.get "type" (str "reply")
  if type.isStr "reply" then
    let reply ← action.item "reply"
    return replyLines 2 (← reply.text) ++ [done]
  else if type.isStr "python" then
    let code ← codeLines (← action.item "python")
    return scriptLines className code ++ [.code 3 "return False, str(e)", done]
  else if type.isStr "http_get" then
    let url ← requestUrl (← action.item "http_get")
    let template ← action.get "reply" pageReply
    let url ← url.display
    let reply ← template.display
    return [⟨2, .unlessHttp⟩,
        .send 3 (.quoted "❌ 此功能需要安装 aiohttp"),
        .code 3 "return False, \"缺少 aiohttp\"",
        .code 2 "try:"] ++ fetchLines url ++
      [.send 3 (.template reply),
        .code 2 "except Exception as e:",
        failureLine "请求",
        .code 3 "return False, str(e)",
        done]
  else if type.isStr "llm_prompt" then
    let prompt ← action.item "llm_prompt"
    return promptLines "extra" (← prompt.display) ++
      [.code 2 "except Exception as e:",
        .code 3 "logger.error(f\"执行失败：\x7be\x7d\")",
        .code 3 "return False, str(e)",
        done]
  else return []

def reasonEntry : Value × Value := (str "reason", str "执行原因")

def actionClass (start : Text) (action : Value) : Outcome ComponentClass := do
  let internalName ← (← action.item "internal_name").text
  let params ← action.get "params" (.dict [])
  let declared := Value.insertAll [reasonEntry] (← params.asEntries)
  let name ← action.item "name"
  let title ← name.display
  let description ← (← descriptionOf action name).display
  let parameters ← (Value.dict declared).literal
  let triggers ← (← action.item "when").literal
  let types ← (← action.get "types" (.list [str "text"])).literal
  let read ← (← params.elements).mapM Value.display
  let className := componentClassName start .action internalName
  let body ← actionBody className title action
  return { className := className
           title := title
           componentName := internalName
           description := description
           trigger := .action parameters triggers types
           body := (Text.ofString "reason" :: read).map (parameterLine 2) ++ body }

def componentClass (start : Text) : Role → Value → Outcome ComponentClass
  | .command => commandClass start
  | .action => actionClass start

/-! ### Rows -/

structure ComponentRow where
  role : Role
  className : Text
  deriving DecidableEq, Repr

def ComponentRow.line (r : ComponentRow) : Line :=
  .code 3 ("(" ++ r.className ++ ".get_" ++ r.role.name ++ "_info(), " ++ r.className ++ "),")

def componentRow (start : Text) (role : Role) (component : Value) : Outcome ComponentRow := do
  let internalName ← (← component.item "internal_name").text
  return ⟨role, componentClassName start role internalName⟩

end PluginKit.Package
