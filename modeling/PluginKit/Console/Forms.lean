import PluginKit.Console.Options
import PluginKit.Template.Kind

/-!
# The commands

There are five commands. Each has its form; what is before the name of the command is read against a form of
its own, which knows nothing but the flag for help.
-/

namespace PluginKit.Console

inductive Command where
  | create
  | validate
  | pack
  | listTemplates
  | compile
  deriving DecidableEq, Repr

namespace Command

def all : List Command := [create, validate, pack, listTemplates, compile]

def name : Command → Text
  | create => "create"
  | validate => "validate"
  | pack => "pack"
  | listTemplates => "list-templates"
  | compile => "run-maiscript"

def ofName? (name : Text) : Option Command := all.find? (·.name == name)

def help : Command → Text
  | create => "创建新的麦麦插件"
  | validate => "验证插件结构和 manifest"
  | pack => "打包插件为 zip 文件"
  | listTemplates => "列出所有可用的插件模板"
  | compile => "将 MaiScript (.mai) 文件编译为 Python 插件"

end Command

def programName : Text := "mai"

/-! ### Flags -/

def templateFlag : Flag :=
  ⟨["-t", "--template"], some "TEMPLATE", Template.Kind.all.map Template.Kind.key,
    "使用指定模板（不填则进入交互式选择）"⟩

def outputFlag (help : Text) : Flag := ⟨["-o", "--output"], some "OUTPUT", [], help⟩

def placeFlag : Flag := outputFlag "输出目录（默认为当前目录）"

def authorFlag : Flag := ⟨["--author"], some "AUTHOR", [], "插件作者名称"⟩

def descriptionFlag : Flag := ⟨["--description"], some "DESCRIPTION", [], "插件描述"⟩

def versionFlag : Flag := ⟨["--version-str"], some "VERSION_STR", [], "插件版本号（默认 1.0.0）"⟩

def yesFlag : Flag := ⟨["--yes", "-y"], none, [], "非交互式模式，所有提示使用默认值"⟩

def archiveFlag : Flag := outputFlag "输出 zip 文件路径（默认为插件目录同级）"

def targetFlag : Flag := outputFlag "输出目录（默认为 .mai 文件所在目录）"

/-! ### Forms -/

def commandNames : Text := "\x7b" ++ Text.join "," (Command.all.map Command.name) ++ "\x7d"

def mainForm : Form :=
  ⟨programName, ["usage: " ++ programName ++ " [-h] " ++ commandNames ++ " ..."], [helpFlag], none⟩

namespace Command

def program (c : Command) : Text := programName ++ " " ++ c.name

def usageStart (c : Command) : Text := "usage: " ++ c.program ++ " [-h]"

def form : Command → Form
  | create =>
    let indent := blanks 18
    ⟨create.program,
      [create.usageStart ++ " [-t \x7b" ++ Text.join "," templateFlag.choices ++ "\x7d]",
        indent ++ "[-o OUTPUT] [--author AUTHOR] [--description DESCRIPTION]",
        indent ++ "[--version-str VERSION_STR] [--yes]",
        indent ++ "name"],
      [helpFlag, templateFlag, placeFlag, authorFlag, descriptionFlag, versionFlag, yesFlag],
      some ("name", "插件名称（英文，用下划线分隔，如 my_plugin）")⟩
  | validate =>
    ⟨validate.program, [validate.usageStart ++ " path"], [helpFlag], some ("path", "插件目录路径")⟩
  | pack =>
    ⟨pack.program, [pack.usageStart ++ " [-o OUTPUT] path"], [helpFlag, archiveFlag],
      some ("path", "插件目录路径")⟩
  | listTemplates => ⟨listTemplates.program, [listTemplates.usageStart], [helpFlag], none⟩
  | compile =>
    ⟨compile.program, [compile.usageStart ++ " [-o OUTPUT] file"], [helpFlag, targetFlag],
      some ("file", "MaiScript 文件路径（.mai）")⟩

end Command

/-! ### The main help text -/

def closingLines : List Text :=
  ["子命令说明:",
    "  create          创建新插件（支持多种模板）",
    "  validate        验证插件 manifest 和结构",
    "  pack            打包插件为 zip 文件",
    "  list-templates  列出所有可用的插件模板",
    "  run-maiscript   将 MaiScript (.mai) 文件编译为 Python 插件",
    "",
    "示例:",
    "  mai create my_plugin                  # 交互式创建插件",
    "  mai create my_plugin -t action        # 使用 action 模板创建",
    "  mai create my_plugin -t js_bridge     # 创建 JS 桥接插件",
    "  mai validate ./my_plugin              # 验证插件结构",
    "  mai pack ./my_plugin                  # 打包插件",
    "  mai run-maiscript ./my_plugin.mai     # 编译 MaiScript 文件",
    "        "]

def purposeLines : List Text := ["", "麦麦(MaiBot)插件开发脚手架工具", "", "options:"]

def commandsHeading : List Text := ["", "可用命令:", "  " ++ commandNames]

def mainHelpLines : List Text :=
  mainForm.usage ++ purposeLines ++ helpRow greatestColumn (helpFlag.shown, helpFlag.help) ++
    commandsHeading ++ Command.all.flatMap (fun c => helpRow greatestColumn ("  " ++ c.name, c.help)) ++
    [[]] ++ closingLines

def bannerLines : List Text :=
  ["",
    "  __  __       _   ____        _       _____ _      _____ ",
    " |  \\/  |     (_) |  _ \\      | |     / ____| |    |_   _|",
    " | \\  / | __ _ _  | |_) | ___ | |_   | |    | |      | |  ",
    " | |\\/| |/ _` | | |  _ < / _ \\| __|  | |    | |      | |  ",
    " | |  | | (_| | | | |_) | (_) | |_   | |____| |____ _| |_ ",
    " |_|  |_|\\__,_|_| |____/ \\___/ \\__|   \\_____|______|_____|",
    "                                                           ",
    "  麦麦插件脚手架工具 v1.0.0  —  让插件开发变得简单！",
    ""]

end PluginKit.Console
