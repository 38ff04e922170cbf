import PluginKit.Value.Fault

/-!
# Reports on plugins

The check of a plugin says what it looks at line by line and gathers what it finds: problems, with which the
plugin cannot be used, and advice. At the end comes a verdict, which is good if there are no problems.
-/

namespace PluginKit.Check

inductive Problem where
  | missingFile (name : Text)
  | missingAuthor
  | emptyAuthor
  | missingField (name : Text)
  | badCategory (text : Text)
  | badManifestVersion (text : Text)
  | badManifest (reason : Text)
  | badSource (reason : Text)
  deriving DecidableEq, Repr

def Problem.message : Problem → Text
  | missingFile name => "缺少必要文件：" ++ name
  | missingAuthor => "manifest 缺少 author 字段"
  | emptyAuthor => "manifest 的 author.name 不能为空"
  | missingField name => "manifest 缺少必要字段：" ++ name
  | badCategory text => "无效的分类标识符：'" ++ text ++ "'，请使用规定的英文分类"
  | badManifestVersion text => "manifest_version 必须为 1，当前为：" ++ text
  | badManifest reason => "manifest.json 格式错误：" ++ reason
  | badSource reason => "plugin.py 语法错误：" ++ reason

inductive Advice where
  | emptyField (name : Text)
  | missingHostVersion
  | oldHostVersion (text : Text)
  | handmadeConfig
  deriving DecidableEq, Repr

def Advice.message : Advice → Text
  | emptyField name => "建议填写可选字段：" ++ name
  | missingHostVersion => "建议填写 host_application.min_version"
  | oldHostVersion text =>
    "host_application.min_version = " ++ text ++
      "，建议设为 0.8.0（当前 MaiBot 插件系统最低兼容版本）"
  | handmadeConfig => "发现 config.toml 文件，建议由系统自动生成而非手动创建"

structure Report where
  lines : List Text
  problems : List Problem
  advice : List Advice
  deriving DecidableEq, Repr

def Report.empty : Report := ⟨[], [], []⟩

/-- A step of a check, which may end by a fault; what was said and found before stays. -/
abbrev CheckM := ExceptT Fault (StateM Report)

/-- Says a line, which has to have a UTF-8 form. -/
def say (line : Text) : CheckM Unit := do
  match Text.checkUtf8 line with
  | .ok () => modify fun r => { r with lines := r.lines ++ [line] }
  | .error e => throw (.encode e)

def blame (p : Problem) : CheckM Unit :=
  modify fun r => { r with problems := r.problems ++ [p] }

def advise (a : Advice) : CheckM Unit :=
  modify fun r => { r with advice := r.advice ++ [a] }

def lift {α : Type} : Outcome α → CheckM α
  | .ok a => pure a
  | .error f => throw f

def each {α : Type} (step : α → CheckM Unit) : List α → CheckM Unit
  | [] => pure ()
  | a :: rest => do
    step a
    each step rest

def listed (heading : Text) (items : List Text) : List Text :=
  if items.isEmpty then [] else heading :: items.map fun item => "   - " ++ item

def Report.verdictLine (r : Report) : Text :=
  if r.problems.isEmpty then s!"✅ 验证通过！共 {r.advice.length} 个警告"
  else s!"❌ 验证失败！共 {r.problems.length} 个错误，{r.advice.length} 个警告"

def Report.verdict (r : Report) : List Text :=
  ["\n" ++ Text.times 50 '=', r.verdictLine] ++
    listed "\n❌ 错误：" (r.problems.map Problem.message) ++
    listed "\n⚠️  警告：" (r.advice.map Advice.message) ++ [([] : Text)]

end PluginKit.Check
