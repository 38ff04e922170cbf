import PluginKit.Host
import PluginKit.Value.Access

/-!
# The context that the host keeps for a script

Beside the context that a running script has, the host keeps one of its own, through which messages can be
sent and parameters, captured groups and configuration values read. Failures to send are logged and go no
further.
-/

namespace PluginKit.Bridge

open Value (str)

inductive Matched where
  | nothing
  /-- A match with its groups, some of which may not have taken part. -/
  | groups (items : List (Option Text))
  | other

inductive ConfigSource where
  | none
  | values (entries : List (Value × Value))
  | broken

structure ScriptContext where
  streamId : Text
  pluginName : Text
  matched : Matched
  config : ConfigSource
  actionData : Value

namespace ScriptContext

/-- The context with data that does not count as present replaced by an empty dictionary. -/
def ofParts (streamId pluginName : Text) (matched : Matched) (config : ConfigSource)
    (actionData : Value) : ScriptContext :=
  ⟨streamId, pluginName, matched, config, if actionData.truthy then actionData else .dict []⟩

/-- Sends a message, unless it does not count as present; a failure is logged under the name of the
operation. -/
def sendAs (c : ScriptContext) (operation : Text) (function : HostFunction)
    (content : Value) : HostM Value := do
  if content.truthy then
    let shown ← Host.lift content.display
    try
      let _ ← Host.call function [str shown, str c.streamId] []
    catch f => Host.log .error ("[JsContext] " ++ operation ++ " 失败：" ++ f.message)
  return .null

def lookup (entries : List (Value × Value)) (key default : Value) : Outcome Value :=
  if key.hashable then .ok ((Value.lookup? key entries).getD default)
  else .error (.misuse (.notKey key.kind))

def param (c : ScriptContext) (key default : Value) : Outcome Value :=
  match c.actionData.view with
  | .dict entries => lookup entries key default
  | v => .error (.noMember v.kind "get")

def position? : Value → Option Int
  | .int n => some n
  | .bool b => some b.toNat
  | _ => none

/-- What a group captured; group zero is the whole match. Where there is no such group the answer is null. -/
def group (c : ScriptContext) (number : Value) : Outcome Value :=
  match c.matched with
  | .nothing => .ok .null
  | .other => .ok .null
  | .groups items =>
    match position? number with
    | some n =>
      if n < 0 then .ok .null
      else if n = 0 then .ok (str (items.map (·.getD [])).flatten)
      else .ok ((((items[n.toNat - 1]?).getD none).map str).getD .null)
    | none => if number.hashable then .ok .null else .error (.misuse (.notKey number.kind))

/-- A configuration value, or the default, also where asking for it fails. -/
def setting (c : ScriptContext) (key default : Value) : Value :=
  match c.config with
  | .values entries => ((lookup entries key default).toOption).getD default
  | _ => default

def toValue (c : ScriptContext) : Value :=
  .record [("stream_id", str c.streamId), ("plugin_name", str c.pluginName),
    ("action_data", c.actionData)]

def logAs (c : ScriptContext) (level : Level) (message : Value) : HostM Value := do
  let shown ← Host.lift message.display
  Host.log level ("[JS:" ++ c.pluginName ++ "] " ++ shown)
  return .null

end ScriptContext

inductive ContextOperation where
  | sendText
  | sendImage
  | sendEmoji
  | param
  | group
  | setting
  | log
  | logError
  | toValue
  deriving DecidableEq, Repr

namespace ContextOperation

def all : List ContextOperation :=
  [sendText, sendImage, sendEmoji, param, group, setting, log, logError, toValue]

def name : ContextOperation → Text
  | sendText => "send_text"
  | sendImage => "send_image"
  | sendEmoji => "send_emoji"
  | param => "get_param"
  | group => "get_match"
  | setting => "get_config"
  | log => "log"
  | logError => "log_error"
  | toValue => "to_dict"

def ofName? (name : Text) : Option ContextOperation := all.find? (·.name == name)

end ContextOperation

namespace ScriptContext

def perform (c : ScriptContext) (operation : ContextOperation) (args : List Value) : HostM Value :=
  match operation, args with
  | .sendText, [v] => c.sendAs operation.name .sendText v
  | .sendImage, [v] => c.sendAs operation.name .sendImage v
  | .sendEmoji, [v] => c.sendAs operation.name .sendEmoji v
  | .param, [key] => Host.lift (c.param key .null)
  | .param, [key, default] => Host.lift (c.param key default)
  | .group, [number] => Host.lift (c.group number)
  | .setting, [key] => pure (c.setting key .null)
  | .setting, [key, default] => pure (c.setting key default)
  | .log, [message] => c.logAs .info message
  | .logError, [message] => c.logAs .error message
  | .toValue, [] => pure c.toValue
  | _, _ => throw (.misuse .wrongArguments)

def call (c : ScriptContext) (name : Text) (args : List Value) : HostM Value :=
  match ContextOperation.ofName? name with
  | some operation => c.perform operation args
  | none => throw (.noMember .null name)

end ScriptContext

end PluginKit.Bridge
