import PluginKit.Check.Manifest
import PluginKit.Console.Session
import PluginKit.Json.Reader
import PluginKit.Package.Build

/-!
# Checking plugins

A plugin is a directory with a manifest and a module. The check looks at both and gives a verdict at the end.
-/

namespace PluginKit.Check

open Console Files

def moduleName : Text := "plugin.py"

def requiredFiles : List Text := [Package.manifestName, moduleName]

/-- Does a step of the check: its lines are printed also when it ends by a fault. -/
def run (step : CheckM Unit) (r : Report) : SessionM Report := do
  let (outcome, r') := step.run.run { r with lines := [] }
  Session.sayAll r'.lines
  match outcome with
  | .ok () => return r'
  | .error f => Session.fail f

def checkFile (name : Text) (present : Bool) : CheckM Unit :=
  if present then say ("  ✅ " ++ name)
  else do
    blame (.missingFile name)
    say ("  ❌ " ++ name ++ "（缺失）")

def checkFiles (directory : Path) (r : Report) : List Text → SessionM Report
  | [] => return r
  | name :: rest => do
    let r ← run (checkFile name (← Session.exists? (directory.child name))) r
    checkFiles directory r rest

def checkManifestText (text : Text) : CheckM Unit :=
  match Json.read text with
  | .ok manifest => checkManifest manifest
  | .error (.fault f) => throw f
  | .error (.malformed e) => do
    blame (.badManifest (e.message text))
    say ("  ❌ JSON 格式错误：" ++ e.message text)

def checkManifestFile (directory : Path) (r : Report) : SessionM Report := do
  let file := directory.child Package.manifestName
  if ← Session.exists? file then
    Session.say "\n📋 检查 manifest.json..."
    let text ← Session.readText file
    run (checkManifestText text) r
  else return r

def checkSource (problem : Option Text) : CheckM Unit :=
  match problem with
  | none => say "  ✅ Python 语法正确"
  | some reason => do
    blame (.badSource reason)
    say ("  ❌ 语法错误：" ++ reason)

def checkModuleFile (directory : Path) (r : Report) : SessionM Report := do
  let file := directory.child moduleName
  if ← Session.exists? file then
    Session.say "\n🐍 检查 plugin.py 语法..."
    let text ← Session.readText file
    run (checkSource ((← read).sourceProblem? text)) r
  else return r

def checkConfig (present : Bool) : CheckM Unit := if present then advise .handmadeConfig else pure ()

def checkDirectory (directory : Path) : SessionM Report := do
  Session.say "📂 检查文件结构..."
  let r ← checkFiles directory .empty requiredFiles
  if ← Session.exists? (directory.child "plugin.js") then
    Session.say "  ✅ plugin.js（JS 桥接插件）"
  let r ← checkManifestFile directory r
  let r ← checkModuleFile directory r
  run (checkConfig (← Session.exists? (directory.child "config.toml"))) r

def check (directory : Path) : SessionM Unit := do
  Session.say ("\n🔍 正在验证插件：" ++ (← Session.resolve directory).text ++ "\n")
  if !(← Session.exists? directory) then
    Session.say ("❌ 路径不存在：" ++ directory.text)
  else if !(← Session.isDirectory directory) then
    Session.say ("❌ 路径不是目录：" ++ directory.text)
  else
    let r ← checkDirectory directory
    Session.sayAll r.verdict

end PluginKit.Check
