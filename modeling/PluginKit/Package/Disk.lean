import PluginKit.Console.Session
import PluginKit.Package.Build
import PluginKit.Script.Parse

/-!
# Building into a directory

The files of a build are written into a directory, which is made if it is not there. A build that a fault
ends leaves behind what it has written until then.
-/

namespace PluginKit.Package

open Console Files

def writeFiles (directory : Path) : List (Text × Text) → SessionM Unit
  | [] => pure ()
  | (name, text) :: rest => do
    Session.writeFile (directory.child name) (.text text)
    writeFiles directory rest

def Build.write (b : Build) (directory : Path) : SessionM Unit := do
  writeFiles directory b.files
  match b.fault with
  | some f => Session.fail f
  | none => pure ()

def buildInto (directory : Path) (data : Value) : SessionM Unit := do
  Session.ensureDirectories directory
  let parts ← Session.lift (Parts.ofValue data)
  (parts.build directory.name).write directory
  Session.sayAll (← Session.lift (parts.report directory.text directory.name))

def buildData (directory : Path) (data : Value) : SessionM Unit := do
  buildInto directory (← Session.lift (requireData data))

def readScript (file : Path) : SessionM Value := do
  if ← Session.exists? file then
    let text ← Session.readText file
    Session.lift (Script.parse (← read).yamlInstalled file.text text)
  else Session.fail (.noFile ("文件不存在：" ++ file.text))

def defaultDirectory (file : Path) : Path := file.parent.child file.stem

def buildFile (file : Path) (directory : Option Path) : SessionM Path := do
  let data ← readScript file
  let target := directory.getD (defaultDirectory file)
  buildInto target data
  return target

def usualSuffixes : List Text := [".mai", ".yaml", ".yml"]

def compileScript (file : Path) (directory : Option Path) : SessionM Unit := do
  if ← Session.exists? file then
    if !usualSuffixes.contains file.suffix then
      Session.say ("⚠️  文件扩展名建议为 .mai，当前为 " ++ file.suffix)
    let target := directory.getD (defaultDirectory file)
    Session.say ("\n🔧 正在编译 MaiScript 文件：" ++ file.text)
    Session.say ("📂 输出目录：" ++ target.text ++ "\n")
    match ← Session.attempt (buildFile file (some target)) with
    | .ok _ => pure ()
    | .error (.noLibrary text) =>
      Session.say "❌ 无法导入 mai_script 模块，请确保 MaiBot-Plugin-Kit 安装正确"
      Session.fail (.noLibrary text)
    | .error f =>
      Session.say ("❌ 编译失败：" ++ f.message)
      Session.fail f
  else Session.say ("❌ 文件不存在：" ++ file.text)

end PluginKit.Package
