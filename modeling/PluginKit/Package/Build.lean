import PluginKit.Package.Manifest
import PluginKit.Package.Notes

/-!
# Building a plugin

From plugin data come four files: the manifest, the module, a note on the configuration if there is any, and
a read-me file. They are written in this order, and a fault ends the writing, so that a build is a list of
files together with the fault that came after them. Where the files go is another matter: `inMemory` gives
them as a dictionary, and `PluginKit.Package.Disk` puts them into a directory.
-/

namespace PluginKit.Package

open Value (str)

/-- The files that a build has written, the last of them perhaps not completely, and the fault that ended
it, if any. -/
structure Build where
  files : List (Text × Text)
  fault : Option Fault

namespace Build

def empty : Build := ⟨[], none⟩

/-- The second build after the first, unless the first was ended by a fault. -/
def andThen (a b : Build) : Build :=
  match a.fault with
  | some _ => a
  | none => ⟨a.files ++ b.files, b.fault⟩

/-- A file with a text that is known before the file is opened. A text without a UTF-8 form leaves the file
empty. -/
def file (name : Text) (text : Outcome Text) : Build :=
  match text with
  | .error f => ⟨[], some f⟩
  | .ok s =>
    match Text.checkUtf8 s with
    | .ok () => ⟨[(name, s)], none⟩
    | .error e => ⟨[(name, "")], some (.encode e)⟩

end Build

/-- The pieces that can be written in UTF-8, up to the first that cannot, and the fault at the end. -/
def writablePieces : List Text → Option Fault → List Text × Option Fault
  | [], fault => ([], fault)
  | p :: rest, fault =>
    match Text.checkUtf8 p with
    | .error e => ([], some (.encode e))
    | .ok () =>
      let (pieces, f) := writablePieces rest fault
      (p :: pieces, f)

def jsonFile (name : Text) (v : Value) : Build :=
  let e := Json.emit Json.pretty 0 [] v
  let (pieces, fault) := writablePieces e.pieces e.fault
  ⟨[(name, List.flatten pieces)], fault⟩

def jsonFileOf (name : Text) : Outcome Value → Build
  | .error f => ⟨[], some f⟩
  | .ok v => jsonFile name v

def manifestName : Text := "_manifest.json"

def moduleName : Text := "plugin.py"

def configNoteName : Text := "config_note.md"

def readmeName : Text := "README.md"

structure Parts where
  plugin : Value
  commands : Value
  actions : Value
  config : Value

/-- The parts of plugin data; components and configuration may be missing. -/
def Parts.ofValue (data : Value) : Outcome Parts := do
  let plugin ← data.item "plugin"
  let commands ← data.get "commands" (.list [])
  let actions ← data.get "actions" (.list [])
  let config ← data.get "config" (.dict [])
  return ⟨plugin, commands, actions, config⟩

def Parts.build (directory : Text) (p : Parts) : Build :=
  (jsonFileOf manifestName (manifest p.plugin p.commands p.actions)).andThen
    ((Build.file moduleName
        ((Module.ofValues p.plugin p.commands p.actions p.config).map Module.text)).andThen
      ((if p.config.truthy then Build.file configNoteName (configNote p.config) else .empty).andThen
        (Build.file readmeName (readme directory p.plugin p.commands p.actions))))

def build (directory : Text) (data : Value) : Build :=
  match Parts.ofValue data with
  | .error f => ⟨[], some f⟩
  | .ok p => p.build directory

def Parts.report (p : Parts) (path directory : Text) : Outcome (List Text) := do
  let commands ← p.commands.length
  let actions ← p.actions.length
  let start : List Text :=
    ["✅ 编译成功！插件目录：" ++ path, "   - _manifest.json",
      s!"   - plugin.py（包含 {commands} 个命令，{actions} 个 Action）"]
  let note : List Text := if p.config.truthy then ["   - config_note.md（配置说明）"] else []
  let ending : List Text :=
    ["   - README.md", "\n🚀 将 " ++ directory ++ "/ 目录复制到 MaiBot/plugins/ 目录并重启 MaiBot 即可！\n"]
  return start ++ note ++ ending

def noData : Fault :=
  .badValue (.other "compile() 需要提供 data 参数，或在 __init__() 中传入 data")

def requireData : Value → Outcome Value
  | .null => .error noData
  | v => .ok v

def memoryDirectory : Text := "plugin_output"

def inMemory (data : Value) : Outcome (List (Text × Text)) := do
  let b := build memoryDirectory (← requireData data)
  match b.fault with
  | some f => .error f
  | none =>
    return b.files.map fun f => (f.1, Text.foldNewlines f.2)

end PluginKit.Package
