import PluginKit.Console.Session
import PluginKit.Json.Reader
import PluginKit.Package.Build
import PluginKit.Template.Fill
import PluginKit.Template.Kind
import PluginKit.Text.Number

/-!
# Creating plugins

A new plugin is a copy of a template with its placeholders filled. What is not given is asked for, if
somebody sits at a terminal who wants to be asked; otherwise it takes a default. Nothing is changed before
the last question is answered.
-/

namespace PluginKit.Template

open Console Files

structure Order where
  name : Text
  kind : Option Kind
  output : Text
  author : Option Text
  description : Option Text
  version : Option Text
  yes : Bool

/-! ### Questions -/

def silent (yes : Bool) : SessionM Bool := return yes || !(← read).terminal

/-- Asks for a line; the end of the input ends the session. -/
def askLine (question : Text) : SessionM Text := do
  Session.print question
  match ← Session.nextLine? with
  | some line => return Text.trim Text.isBlank line
  | none =>
    Session.say "\n\n已取消。"
    Session.exit 0

def askText (question default : Text) (yes : Bool) : SessionM Text := do
  if ← silent yes then return default
  else
    let answer ← askLine (question ++ " [" ++ default ++ "]: ")
    return if answer.isEmpty then default else answer

def yesWords : List Text := ["y", "yes", "是"]

/-- Asks for a confirmation; it is not given by default. -/
def confirm (question : Text) (yes : Bool) : SessionM Bool := do
  if ← silent yes then return false
  else
    let answer ← askLine (question ++ " (y/N): ")
    return yesWords.contains (Text.lower answer)

/-- A given text, unless it is empty; else one that is asked for. -/
def givenOr (given : Option Text) (question default : Text) (yes : Bool) : SessionM Text :=
  match given with
  | some s => if s.isEmpty then askText question default yes else pure s
  | none => askText question default yes

def offerLines (number : Nat) (k : Kind) : List Text :=
  [s!"  [{number}] " ++ k.title, "       " ++ k.summary, "       技术要求：" ++ k.skill ++ "\n"]

def menuLines : List Text :=
  "\n📦 请选择插件模板：\n" :: (Kind.all.mapIdx fun i k => offerLines (i + 1) k).flatten

/-- What a line that answers the menu means, or what is objected to it. -/
def choice (answer : Text) : Except Text Kind :=
  match Text.readInt 10 answer with
  | .number n =>
    match Kind.ofNumber? n with
    | some k => .ok k
    | none => .error s!"❌ 请输入 1 到 {Kind.all.length} 之间的数字"
  | _ => .error "❌ 请输入有效的数字"

/-- Asks for a number until one of a template is given. At most `patience` answers are looked at. -/
def chooseFrom : Nat → SessionM Kind
  | 0 => do
    let _ ← askLine s!"请输入序号 (1-{Kind.all.length}): "
    Session.exit 0
  | patience + 1 => do
    match choice (← askLine s!"请输入序号 (1-{Kind.all.length}): ") with
    | .ok k => return k
    | .error objection =>
      Session.say objection
      chooseFrom patience

/-- Offers the templates and asks for one. There are no more answers than typed lines. -/
def choose : SessionM Kind := do
  Session.sayAll menuLines
  chooseFrom (← get).lines.length

def pickKind (o : Order) : SessionM Kind := do
  match o.kind with
  | some k => return k
  | none =>
    if ← silent o.yes then
      Session.say "ℹ️  非交互模式，使用默认模板：minimal"
      return .minimal
    else choose

/-! ### The new plugin -/

def Order.directory (o : Order) : Path := (Path.ofText o.output).child o.name

def askFacts (o : Order) (k : Kind) : SessionM Facts := do
  let author ← givenOr o.author "  作者名称" "未知作者" o.yes
  let description ←
    givenOr o.description "  插件描述" ("一个使用 " ++ k.key ++ " 模板创建的麦麦插件") o.yes
  let version ← givenOr o.version "  版本号" "1.0.0" o.yes
  return ⟨o.name, description, version, author, (← read).year⟩

/-- Fills the placeholders of files; those that are no texts stay as they are. -/
def fillFiles (f : Facts) (directory : Path) : List (List Text × Entry) → SessionM Unit
  | [] => pure ()
  | (parts, .file content) :: rest => do
    match content.read with
    | .ok text => Session.writeText ⟨directory.root, directory.parts ++ parts⟩ (f.fill text)
    | .error _ => pure ()
    fillFiles f directory rest
  | (_, .directory) :: rest => fillFiles f directory rest

def updateManifest (f : Facts) (manifest : Path) : SessionM Unit := do
  let text ← Session.readText manifest
  match Json.read text with
  | .error e => Session.fail (.badValue (.other (e.message text)))
  | .ok v =>
    let updated ← Session.lift (f.update v)
    let written := Package.jsonFile manifest.name updated
    Session.writeFile manifest (.text (List.flatten (written.files.map (·.2))))
    match written.fault with
    | some fault => Session.fail fault
    | none => pure ()

def listLine (parts : List Text) (e : Entry) : Text :=
  let indent := Text.times (2 * parts.length) ' '
  let icon : Text := if e.isDirectory then "📁" else "📄"
  "  " ++ indent ++ icon ++ " " ++ parts.getLast?.getD []

def nextSteps (k : Kind) (directory : Text) : List Text :=
  ["\n🚀 下一步：",
    "  1. 进入目录：cd " ++ directory,
    "  2. 编辑主文件：" ++ k.mainFile,
    "  3. 验证插件：python -m mai_plugin_cli validate " ++ directory,
    "  4. 复制到 MaiBot/plugins/ 目录，重启 MaiBot",
    "\n📚 文档：https://maibot-plugin-kit.pages.dev/guide/\n"]

def plant (template : Path) (f : Facts) (directory : Path) : SessionM Unit := do
  Session.copyTree template directory
  Session.say ("\n📁 正在创建插件目录：" ++ directory.text)
  fillFiles f directory (← Session.below directory)

/-- Updates the manifest, if there is one. A fault on the way is only mentioned. -/
def refreshManifest (f : Facts) (directory : Path) : SessionM Unit := do
  let manifest := directory.child Package.manifestName
  if ← Session.exists? manifest then
    match ← Session.attempt (updateManifest f manifest) with
    | .ok () => pure ()
    | .error fault => Session.say ("⚠️  更新 manifest.json 时出现警告：" ++ fault.message)

def announce (k : Kind) (f : Facts) (directory : Path) : SessionM Unit := do
  Session.say ("\n🎉 插件 '" ++ f.name ++ "' 创建成功！\n")
  Session.say "📂 目录结构："
  Session.sayAll ((← Session.below directory).map fun e => listLine e.1 e.2)
  Session.sayAll (nextSteps k directory.text)

/-- Makes the plugin in its directory, where nothing is any more. -/
def install (k : Kind) (f : Facts) (directory : Path) : SessionM Unit := do
  let template := (← read).templates.child k.key
  if ← Session.exists? template then
    plant template f directory
    refreshManifest f directory
    announce k f directory
  else
    Session.say ("❌ 模板目录不存在：" ++ template.text)
    Session.exit 1

def badNameLines (name : Text) : List Text :=
  ["❌ 插件名称 '" ++ name ++ "' 格式不正确！",
    "   必须以字母开头，只能包含字母、数字和下划线",
    "   示例：my_plugin, helloWorld, weather2025"]

/-- Makes sure that nothing is in the way of the new plugin: what is there is removed if that is confirmed. -/
def makeRoom (o : Order) : SessionM Unit := do
  if ← Session.exists? o.directory then
    if ← confirm ("\n⚠️  目录 '" ++ o.directory.text ++ "' 已存在，是否覆盖？") o.yes then
      Session.removeTree o.directory
    else
      Session.say "已取消。"
      Session.exit 0

def invite (yes : Bool) : SessionM Unit :=
  if yes then pure () else Session.say "\n📝 请填写插件信息（按回车使用默认值）：\n"

def create (o : Order) : SessionM Unit := do
  if Script.isPluginName o.name then
    let k ← pickKind o
    Session.say ("\n✅ 已选择模板：" ++ k.title)
    invite o.yes
    let f ← askFacts o k
    makeRoom o
    install k f o.directory
  else
    Session.sayAll (badNameLines o.name)
    Session.exit 1

end PluginKit.Template
