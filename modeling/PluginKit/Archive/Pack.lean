import PluginKit.Archive.Encode
import PluginKit.Archive.Ignored
import PluginKit.Console.Session
import PluginKit.Json.Reader
import PluginKit.Package.Build
import PluginKit.Value.Access

/-!
# Packing plugins

A plugin is packed into an archive beside its directory, unless another place is given. The members are the
files below the directory, under the name of the plugin, in the order of their paths.
-/

namespace PluginKit.Archive

open Console Files

def defaultVersion : Text := "1.0.0"

def manifestVersion (manifest : Path) : SessionM Value := do
  let text ← Session.readText manifest
  match Json.read text with
  | .error e => Session.fail (.badValue (.other (e.message text)))
  | .ok v => Session.lift (v.get "version" (.str defaultVersion))

/-- The version of a plugin. A manifest that cannot be read is as good as none. -/
def pluginVersion (directory : Path) : SessionM Text := do
  let manifest := directory.child Package.manifestName
  if ← Session.exists? manifest then
    match ← Session.attempt (manifestVersion manifest) with
    | .ok v => Session.lift v.display
    | .error _ => return defaultVersion
  else return defaultVersion

/-- The members of an archive under a name: the files among the entries below a directory that are not left
out. -/
def members (name : Text) (above : List Text) (entries : List (List Text × Entry)) : List (Text × Content) :=
  entries.filterMap fun
    | (parts, .file content) =>
      if leadsThroughIgnored (above ++ parts) then none
      else some (name ++ "/" ++ Text.join "/" parts, content)
    | (_, .directory) => none

def contentBytes : Content → List UInt8
  | .text s => Text.encodeUtf8 s
  | .bytes b => b
  | .archive inner => encode (innerMembers inner)
where
  innerMembers : List (Text × Content) → List Member
    | [] => []
    | (name, content) :: rest => ⟨name, contentBytes content⟩ :: innerMembers rest

/-- A size in units of 1024 bytes with one place after the point; a half goes to the even neighbour. -/
def kilobytes (size : Nat) : Text :=
  let tenths := Decimal.roundDiv (size * 10) 1024
  s!"{tenths / 10}.{tenths % 10}"

def archivePath (directory : Path) (version : Text) (output : Option Path) : Path :=
  output.getD (directory.parent.child (directory.name ++ "-v" ++ version ++ ".zip"))

def packInto (directory output : Path) : SessionM (List (Text × Content)) := do
  Session.writeFile output (.text "")
  let packed := members directory.name directory.parts (← Session.below directory)
  Session.sayAll (packed.map fun m => "  + " ++ m.1)
  Session.writeFile output (.archive packed)
  return packed

def pack (path : Path) (output : Option Path) : SessionM Unit := do
  let directory ← Session.resolve path
  if ← Session.isDirectory directory then
    let version ← pluginVersion directory
    let target := archivePath directory version output
    Session.say ("\n📦 正在打包插件：" ++ directory.name ++ " v" ++ version)
    Session.say ("📂 源目录：" ++ directory.text)
    Session.say ("📄 输出文件：" ++ target.text ++ "\n")
    let packed ← packInto directory target
    let size := (contentBytes (.archive packed)).length
    Session.say (s!"\n✅ 打包完成！共 {packed.length} 个文件，大小：" ++ kilobytes size ++ " KB")
    Session.say ("📦 输出文件：" ++ target.text ++ "\n")
  else Session.say ("❌ 插件目录不存在：" ++ directory.text)

end PluginKit.Archive
