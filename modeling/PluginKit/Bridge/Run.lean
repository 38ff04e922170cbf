import PluginKit.Json.Reader
import PluginKit.Json.Writer
import PluginKit.Log
import PluginKit.Registrar.Json
import PluginKit.Text.Blank

/-!
# Running a component of a plugin file

A component of a plugin file is run by an interpreter outside of the library. It is given a small script that
loads the registrar and the plugin file, executes one component and prints its answer as JSON. Whatever a run of
the interpreter comes to, the result is a value for the caller to look into. Faults come before it: from asking for
the interpreter, or from a context without a JSON form.
-/

namespace PluginKit.Bridge

/-! ### The script -/

def scriptHead : Text :=
  "\nconst path = require('path');\nconst fs = require('fs');\n\n// 加载 SDK\nconst sdkPath = "

def scriptContext : Text :=
  ";\nconst sdk = require(sdkPath);\n\n// 上下文数据\nconst contextData = "

def scriptPlugin : Text :=
  ";\n\n// 创建 mai 全局对象（注册器）\nconst registrations = sdk.createRegistrar();\n" ++
  "global.mai = registrations.mai;\n\n// 加载插件文件\nconst pluginPath = "

def scriptComponent : Text :=
  ";\nrequire(pluginPath);\n\n// 执行指定组件\nconst componentName = "

def scriptTail : Text :=
  ";\nsdk.executeComponent(registrations, componentName, contextData)\n" ++
  "  .then(result => \x7b\n" ++
  "    process.stdout.write(JSON.stringify(result));\n" ++
  "    process.exit(0);\n" ++
  "  \x7d)\n" ++
  "  .catch(err => \x7b\n" ++
  "    process.stdout.write(JSON.stringify(\x7b\n" ++
  "      success: false,\n" ++
  "      log: String(err),\n" ++
  "      messages: []\n" ++
  "    \x7d));\n" ++
  "    process.exit(1);\n" ++
  "  \x7d);\n"

/-- The script that runs a component, with four JSON literals filled in. -/
def runnerScript (sdkPath pluginPath : Text) (component context : Value) : Outcome Text := do
  let sdk ← Json.write Json.compact (.str sdkPath)
  let data ← Json.write Json.compact context
  let plugin ← Json.write Json.compact (.str pluginPath)
  let name ← Json.write Json.compact component
  return scriptHead ++ sdk ++ scriptContext ++ data ++ scriptPlugin ++ plugin ++ scriptComponent ++
    name ++ scriptTail

/-! ### The interpreter -/

inductive Probe where
  | ready
  | missing
  | timedOut
  | failed
  /-- Asking ended in a way that is not provided for: the interpreter must not be started, for instance. -/
  | refused (f : Fault)

inductive Exit where
  | timedOut
  | refused (reason : Text)
  | finished (code : Int) (output errors : Text)
  deriving DecidableEq, Repr

/-- The interpreter, as far as a run meets it. -/
structure Interpreter where
  probe : Probe
  exit : Exit

/-- A run that was tried: its result, the log, and the script if it got that far. -/
structure Report where
  result : Value
  logs : List LogEntry
  script : Option Text

def failure (log : Text) : Value :=
  .record [("success", .bool false), ("log", .str log), ("messages", .list [])]

def silence : Value :=
  .record [("success", .bool true), ("log", .str ""), ("messages", .list [])]

def Exit.result : Exit → Value × List LogEntry
  | .timedOut => (failure "执行超时", [⟨.error, "[JsBridge] JS 执行超时（30s）"⟩])
  | .refused reason => (failure reason, [⟨.error, "[JsBridge] 执行 JS 时出错：" ++ reason⟩])
  | .finished code output errors =>
    if code != 0 then (failure errors, [⟨.error, "[JsBridge] Node.js 执行失败：" ++ errors⟩])
    else
      let printed := Text.trim Text.isBlank output
      if printed.isEmpty then (silence, [])
      else
        match Json.read printed with
        | .ok v => (v, [])
        | .error e =>
          let reason := e.message printed
          (failure reason, [⟨.error, "[JsBridge] 执行 JS 时出错：" ++ reason⟩])

def run (i : Interpreter) (sdkPath pluginPath : Text) (component context : Value) : Outcome Report :=
  match i.probe with
  | .ready => do
    let script ← runnerScript sdkPath pluginPath component context
    let (result, logs) := i.exit.result
    return ⟨result, logs, some script⟩
  | .missing | .timedOut | .failed =>
    .ok ⟨failure "Node.js 未安装", [⟨.error, "[JsBridge] Node.js 未安装，无法执行 JS 插件"⟩], none⟩
  | .refused f => .error f

/-! ### What the script does -/

/-- What the script prints and how it ends, when the plugin file makes the given calls. A call that throws
and an execution without an answer both end it with a failure; `errors` stands for what it then writes. -/
def scriptExit (errors : Text) (calls : List Registrar.Call) (component context : Registrar.Datum) : Exit :=
  match Registrar.State.initial.performAll calls with
  | (_, .error _) => .finished 1 "" errors
  | (s, .ok ()) =>
    match (s.registry.execute component context).outcome with
    | .error _ => .finished 1 "" errors
    | .ok answer => .finished 0 answer.print ""

end PluginKit.Bridge
