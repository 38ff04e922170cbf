import PluginKit.Host
import PluginKit.Value.Access

/-!
# Asking language models

A model of the host can be asked directly, with a prompt of one's own and, if wanted, with tools. The models
have names; without a name, and for a name that no model has, the first one is asked.
-/

namespace PluginKit.Reply

open Value (str)

def availableModels : HostM Value := do
  Host.require
  Host.call .models [] []

def modelEntries (models : Value) : Outcome (List (Value × Value)) :=
  models.entriesFor "values"

def defaultModel : HostM Value := do
  let models ← availableModels
  match ← Host.lift (modelEntries models) with
  | [] => return .null
  | (_, model) :: _ => return model

def named? (name : Value) (models : List (Value × Value)) : Outcome (Option Value) :=
  if name.hashable then .ok (Value.lookup? name models) else .error (.misuse (.notKey name.kind))

/-- The model to ask: the one of the name, or the first one with a warning that the name is unknown. Without a
name there is no warning. -/
def chooseModel (name first : Value) (models : List (Value × Value)) : HostM Value := do
  if name.truthy then
    match ← Host.lift (named? name models) with
    | some model => return model
    | none =>
      let shown ← Host.lift name.display
      Host.log .warning ("[PromptModifier] 模型 '" ++ shown ++ "' 不存在，使用默认模型")
      return first
  else return first

def callModel (prompt name temperature maxTokens requestType : Value) : HostM (Value × Value) := do
  Host.require
  let models ← availableModels
  match ← Host.lift (modelEntries models) with
  | [] =>
    Host.log .error "[PromptModifier] 没有可用的模型"
    return (.bool false, str "")
  | (key, first) :: others =>
    let model ← chooseModel name first ((key, first) :: others)
    let reply ← Host.call .generate []
      [("prompt", prompt), ("model_config", model), ("request_type", requestType),
        ("temperature", temperature), ("max_tokens", maxTokens)]
    match ← Host.lift (reply.unpack 4) with
    | [success, content, _, used] =>
      if success.truthy then return (.bool true, content)
      else
        let shown ← Host.lift used.display
        Host.log .warning ("[PromptModifier] 模型 " ++ shown ++ " 生成失败")
        return (.bool false, content)
    | _ => throw (.misuse (.notUnpackable reply.kind))

/-! ### Tools -/

def wantedTools (names : Value) : List Value → Outcome (List Value)
  | [] => .ok []
  | tool :: rest => do
    let name ← tool.get "name" .null
    if ← name.isIn names then return tool :: (← wantedTools names rest)
    else wantedTools names rest

/-- The tools that a model is offered: those whose names are wanted, or all of them where no names are given.
Where there are no tools at all, nothing is offered. -/
def offeredTools (names tools : Value) : Outcome Value :=
  if names.truthy && tools.truthy then do
    let wanted ← wantedTools names (← tools.elements)
    return .list wanted
  else .ok (if tools.truthy then tools else .null)

def attempt {α : Type} (step : HostM α) : HostM (Outcome α) :=
  fun h =>
    match step h with
    | (outcome, h) => (.ok outcome, h)

/-- Asks a model and takes its answer apart: whether it succeeded, what it wrote and which tools it called. -/
def generateWithTools (prompt model tools temperature maxTokens : Value) :
    HostM (Value × Value × Value) := do
  let reply ← Host.call .generateWithTools []
    [("prompt", prompt), ("model_config", model), ("tool_options", tools),
      ("temperature", temperature), ("max_tokens", maxTokens)]
  match ← Host.lift (reply.unpack 5) with
  | [success, content, _, _, calls] => return (success, content, calls)
  | _ => throw (.misuse (.notUnpackable reply.kind))

/-- Asks a model that may call tools. A failure of the model is logged, and its wording is the answer. -/
def callModelWithTools (prompt toolNames name temperature maxTokens : Value) :
    HostM (Value × Value × Value) := do
  Host.require
  let models ← availableModels
  match ← Host.lift (modelEntries models) with
  | [] => return (.bool false, str "", .null)
  | (key, first) :: others =>
    let chosen ← Host.lift (named? name ((key, first) :: others))
    let model := if (chosen.getD .null).truthy then chosen.getD .null else first
    let tools := ((← attempt (Host.call .tools [] [])).toOption).getD (.list [])
    let offered ← Host.lift (offeredTools toolNames tools)
    match ← attempt (generateWithTools prompt model offered temperature maxTokens) with
    | .ok answer => return answer
    | .error f =>
      Host.log .error ("[PromptModifier] 工具调用失败：" ++ f.message)
      return (.bool false, str f.message, .null)

end PluginKit.Reply
