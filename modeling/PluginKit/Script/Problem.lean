import PluginKit.Text.Basic

/-!
# What can be wrong with a script

The objections to a script, each with its wording. They are collected in one place so that a statement about
which scripts are refused is a statement about these causes.
-/

namespace PluginKit.Script

inductive Section where
  | commands
  | actions
  deriving DecidableEq, Repr

def Section.name : Section → Text
  | commands => "commands"
  | actions => "actions"

inductive ComponentProblem where
  | notMapping
  | missingName
  | missingMatch (name : Text)
  | missingWhen (name : Text)
  | missingResponse (name : Text)
  deriving DecidableEq, Repr

inductive Problem where
  | malformed (detail : Text)
  | notMapping
  | pluginNotMapping
  | missingPluginName
  | notList (part : Section)
  | component (part : Section) (index : Nat) (problem : ComponentProblem)
  deriving DecidableEq, Repr

structure Invalid where
  source : Text
  problem : Problem
  deriving DecidableEq, Repr

/-- The wording of a problem with a component, after the place of the component. -/
def ComponentProblem.message : ComponentProblem → Text
  | notMapping => " 必须是一个字典"
  | missingName => " 必须有 name 字段"
  | missingMatch name => "（" ++ name ++ "）必须有 match 字段"
  | missingWhen name => "（" ++ name ++ "）必须有 when 字段（触发条件列表）"
  | missingResponse name => "（" ++ name ++ "）必须有 reply/python/llm_prompt/http_get 之一"

def Invalid.message (e : Invalid) : Text :=
  match e.problem with
  | .malformed detail => "YAML 格式错误（" ++ e.source ++ "）：" ++ detail
  | .notMapping => e.source ++ "：顶层必须是一个 YAML 字典"
  | .pluginNotMapping => e.source ++ "：plugin 必须是一个字典"
  | .missingPluginName => e.source ++ "：plugin.name 是必填字段"
  | .notList part => e.source ++ "：" ++ part.name ++ " 必须是一个列表"
  | .component part index problem =>
    e.source ++ "：" ++ part.name ++ "[" ++ toString index ++ "]" ++ problem.message

end PluginKit.Script
