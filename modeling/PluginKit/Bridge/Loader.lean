import PluginKit.Bridge.Registration
import PluginKit.Bridge.Run
import PluginKit.Files.Content
import PluginKit.Host
import PluginKit.Role
import PluginKit.Value.Access

/-!
# Loading a plugin file

A loader finds the components of one plugin file and makes classes of them for the bot. The components are
found once: what was read first is kept, whatever happens to the file later, and only as long as the file
could not be read is it tried again. Executing a component runs the plugin file and sends the messages that it
answers with.
-/

namespace PluginKit.Bridge

open Value (str)

structure Loader where
  path : Text
  fileName : Text
  pluginName : Text
  found : Option Registrations

structure Loaded where
  loader : Loader
  registrations : Registrations
  logs : List LogEntry

/-- Finds the components of the plugin file, where `entry` is what is now at its path. -/
def Loader.load (l : Loader) (entry : Option Files.Entry) : Loaded :=
  match l.found with
  | some r => ⟨l, r, []⟩
  | none =>
    match entry with
    | none => ⟨l, .empty, [⟨.error, "[JsBridge] JS 文件不存在：" ++ l.path⟩]⟩
    | some e =>
      match Files.readEntry l.path (some e) with
      | .error f => ⟨l, .empty, [⟨.error, "[JsBridge] 解析 JS 文件失败：" ++ f.message⟩]⟩
      | .ok text =>
        let r := Registrations.ofText text
        ⟨{ l with found := some r }, r,
          [⟨.info, "[JsBridge] 解析 " ++ l.fileName ++
            s!"：{r.commands.length} 个命令，{r.actions.length} 个 Action"⟩]⟩

/-! ### Classes -/

inductive ComponentClass where
  | command (name description pattern : Value)
  | action (name description require parameters types : Value)

namespace ComponentClass

def role : ComponentClass → Role
  | command _ _ _ => .command
  | action _ _ _ _ _ => .action

def name : ComponentClass → Value
  | command name _ _ => name
  | action name _ _ _ _ => name

def className (c : ComponentClass) : Outcome Text := do
  let name ← c.name.display
  match c.role with
  | .command => return "JsCommand_" ++ name
  | .action => return "JsAction_" ++ name

end ComponentClass

def checkClassName (name : Text) : Outcome Unit :=
  match Text.checkUtf8 name with
  | .error e => .error (.encode e)
  | .ok () =>
    if name.any (·.toNat == 0) then
      .error (.badValue (.other "type name must not contain null characters"))
    else .ok ()

def commandClass (info : Value) : Outcome ComponentClass := do
  let name ← info.get "name" (str "unknown_command")
  let description ← info.get "description" (str "JS Command")
  let pattern ← info.get "pattern" (str "^$")
  let flags ← info.get "pattern_flags" (str "")
  let _ ← flags.holds "i"
  let c := ComponentClass.command name description pattern
  checkClassName (← c.className)
  return c

def actionClass (info : Value) : Outcome ComponentClass := do
  let name ← info.get "name" (str "unknown_action")
  let description ← info.get "description" (str "JS Action")
  let require ← info.get "require" (.list [str "当需要时"])
  let parameters ← info.get "parameters" (.record [("reason", str "执行原因")])
  let types ← info.get "types" (.list [str "text"])
  let c := ComponentClass.action name description require parameters types
  checkClassName (← c.className)
  return c

def componentClass : Role → Value → Outcome ComponentClass
  | .command => commandClass
  | .action => actionClass

def Registrations.classes (r : Registrations) : Outcome (List ComponentClass) := do
  let commands ← r.commands.mapM fun c => commandClass c.toValue
  let actions ← r.actions.mapM fun a => actionClass a.toValue
  return commands ++ actions

/-- The classes for the bot. Without the bot there are none, and the file is not looked at. -/
def Loader.components (l : Loader) (hostPresent : Bool) (entry : Option Files.Entry) :
    Loader × List LogEntry × Outcome (List ComponentClass) :=
  if hostPresent then
    let loaded := l.load entry
    (loaded.loader, loaded.logs, loaded.registrations.classes)
  else
    (l, [⟨.error, "[JsBridge] 无法导入 src.plugin_system，请确保在 MaiBot 目录内运行"⟩], .ok [])

/-! ### Executing -/

structure Occasion where
  streamId : Value
  groups : Option (List Value)
  actionData : Value

def contextData (pluginName : Text) (o : Occasion) : Role → Value
  | .command =>
    .record [("stream_id", o.streamId), ("plugin_name", str pluginName),
      ("matched_groups", .list (o.groups.getD [])), ("action_data", .dict [])]
  | .action =>
    .record [("stream_id", o.streamId), ("plugin_name", str pluginName),
      ("matched_groups", .list []), ("action_data", o.actionData)]

/-- Sends a message of an answer; one that is empty or of an unknown type is passed over. -/
def sendMessage (streamId message : Value) : HostM Unit := do
  let type ← Host.lift (message.get "type" (str "text"))
  let content ← Host.lift (message.get "content" (str ""))
  match HostFunction.ofType? type with
  | some function =>
    if content.truthy then
      let _ ← Host.call function [content, streamId] []
  | none => pure ()

def sendMessages (streamId : Value) : List Value → HostM Unit
  | [] => pure ()
  | m :: rest => do
    sendMessage streamId m
    sendMessages streamId rest

/-- Sends the messages of an answer and says what the component returns: whether it succeeded and its log,
and for a command also that the message was taken care of. -/
def deliver (role : Role) (streamId result : Value) : HostM (List Value) := do
  let messages ← Host.lift (result.get "messages" (.list []))
  sendMessages streamId (← Host.lift messages.elements)
  let success ← Host.lift (result.get "success" (.bool false))
  let log ← Host.lift (result.get "log" (str ""))
  match role with
  | .command => return [success, log, .bool true]
  | .action => return [success, log]

def Loader.run (l : Loader) (sdkPath : Text) (i : Interpreter) (c : ComponentClass) (o : Occasion) : Outcome Report :=
  Bridge.run i sdkPath l.path c.name (contextData l.pluginName o c.role)

def Loader.execute (l : Loader) (sdkPath : Text) (i : Interpreter) (c : ComponentClass) (o : Occasion) :
    HostM (List Value) := do
  Host.require
  let report ← Host.lift (l.run sdkPath i c o)
  modify fun h => { h with logs := h.logs ++ report.logs }
  deliver c.role o.streamId report.result

end PluginKit.Bridge
