import PluginKit.Script.Match
import PluginKit.Script.Name
import PluginKit.Value.Access

/-!
# From a script to plugin data

The mapping that a script denotes is checked and completed: names get identifiers, match texts get regular
expressions, and missing texts get defaults. The result is a `Definition`, which the package writer takes as
a value again, because it accepts data from elsewhere too.
-/

namespace PluginKit.Script

open Value (str)

inductive Response where
  | reply (text : Text)
  | python (code : Text)
  /-- Asks a language model; the template says how its answer is shown. -/
  | prompt (text : Text) (template : Value)
  | httpGet (request : Value) (reply : Value)

structure PluginInfo where
  name : Text
  internalName : Text
  version : Text
  author : Text
  description : Text
  categories : Value
  keywords : Value

structure Command where
  name : Text
  internalName : Text
  matchText : Text
  pattern : Text
  description : Value
  response : Response

structure Action where
  name : Text
  internalName : Text
  triggers : Value
  description : Value
  params : Value
  types : Value
  response : Response

structure Definition where
  plugin : PluginInfo
  commands : List Command
  actions : List Action
  config : Value

def defaultPromptReply : Value := str "\x7bllm_response\x7d"

def defaultHttpReply : Value := str "\x7bhttp_response\x7d"

/-- The response that a component declares: the first of its four forms that is there. -/
def Response.ofEntries? (entries : List (Value × Value)) : Outcome (Option Response) :=
  match Value.field? "reply" entries with
  | some v => do return some (.reply (← v.display))
  | none =>
    match Value.field? "python" entries with
    | some v => do return some (.python (← v.display))
    | none =>
      match Value.field? "llm_prompt" entries with
      | some v => do
        return some (.prompt (← v.display) ((Value.field? "reply" entries).getD defaultPromptReply))
      | none =>
        .ok ((Value.field? "http_get" entries).map fun v =>
          .httpGet v ((Value.field? "reply" entries).getD defaultHttpReply))

def presentField? (key : Text) (entries : List (Value × Value)) : Option Value :=
  (Value.field? key entries).filter Value.truthy

def asMatchText : Value → Outcome Text
  | .str s => .ok s
  | .bytes _ => .error (.misuse .bytesStart)
  | v => .error (.noMember v.kind "startswith")

def PluginInfo.ofEntries (source : Text) (entries : List (Value × Value)) : Outcome PluginInfo :=
  match presentField? "name" entries with
  | none => .error (.script ⟨source, .missingPluginName⟩)
  | some nameValue => do
    let name ← nameValue.display
    let field (key default : Text) : Outcome Text :=
      ((Value.field? key entries).getD (str default)).display
    return { name := name
             internalName := safeName name
             version := ← field "version" "1.0.0"
             author := ← field "author" "未知作者"
             description := ← field "description" (name ++ " 插件")
             categories := (Value.field? "categories" entries).getD (.list [str "Other"])
             keywords := (Value.field? "keywords" entries).getD (.list []) }

def Command.ofValue (source : Text) (index : Nat) (v : Value) : Outcome Command := do
  let refuse {α : Type} (p : ComponentProblem) : Outcome α :=
    .error (.script ⟨source, .component .commands index p⟩)
  let .dict entries := v.view | refuse .notMapping
  let some nameValue := presentField? "name" entries | refuse .missingName
  let some matchValue := presentField? "match" entries
    | do refuse (.missingMatch (← nameValue.display))
  let text ← asMatchText matchValue
  let name ← nameValue.text
  let description := (Value.field? "description" entries).getD (str ("响应 " ++ text ++ " 命令"))
  let some response ← Response.ofEntries? entries | refuse (.missingResponse name)
  return ⟨name, safeName name, text, matchPattern text, description, response⟩

/-- The triggers of an action: a single text stands for a list of one. -/
def triggerList : Value → Value
  | .str s => .list [str s]
  | v => v

def mappingOrEmpty (v : Value) : Value :=
  match v.view with
  | .dict _ => v
  | _ => .dict []

def Action.ofValue (source : Text) (index : Nat) (v : Value) : Outcome Action := do
  let refuse {α : Type} (p : ComponentProblem) : Outcome α :=
    .error (.script ⟨source, .component .actions index p⟩)
  let .dict entries := v.view | refuse .notMapping
  let some nameValue := presentField? "name" entries | refuse .missingName
  let some whenValue := presentField? "when" entries
    | do refuse (.missingWhen (← nameValue.display))
  let triggers := triggerList whenValue
  let name ← nameValue.text
  let trigger ← (← triggers.element 0).display
  let description := (Value.field? "description" entries).getD (str ("当 " ++ trigger ++ " 时执行"))
  let params := mappingOrEmpty ((Value.field? "params" entries).getD (.dict []))
  let types := (Value.field? "types" entries).getD (.list [str "text"])
  let some response ← Response.ofEntries? entries | refuse (.missingResponse name)
  return ⟨name, safeName name, triggers, description, params, types, response⟩

def readItems {α : Type} (read : Nat → Value → Outcome α) (index : Nat) : List Value → Outcome (List α)
  | [] => .ok []
  | v :: rest => do
    let x ← read index v
    return x :: (← readItems read (index + 1) rest)

/-- The list of a section; a section that is not there is empty. -/
def sectionItems (source : Text) (part : Section) (entries : List (Value × Value)) : Outcome (List Value) :=
  match (Value.field? part.name entries).map Value.view with
  | none => .ok []
  | some (.list items) => .ok items
  | some _ => .error (.script ⟨source, .notList part⟩)

def Definition.ofValue (source : Text) (v : Value) : Outcome Definition := do
  let entries ← v.entriesFor "get"
  let .dict pluginEntries := ((Value.field? "plugin" entries).getD (.dict [])).view
    | .error (.script ⟨source, .pluginNotMapping⟩)
  let plugin ← PluginInfo.ofEntries source pluginEntries
  let commands ← readItems (Command.ofValue source) 0 (← sectionItems source .commands entries)
  let actions ← readItems (Action.ofValue source) 0 (← sectionItems source .actions entries)
  return ⟨plugin, commands, actions, mappingOrEmpty ((Value.field? "config" entries).getD (.dict []))⟩

/-! ### Definitions as values -/

def Response.fields : Response → List (String × Value)
  | .reply text => [("type", str "reply"), ("reply", str text)]
  | .python code => [("type", str "python"), ("python", str code)]
  | .prompt text template =>
    [("type", str "llm_prompt"), ("llm_prompt", str text), ("reply_template", template)]
  | .httpGet request shown => [("type", str "http_get"), ("http_get", request), ("reply", shown)]

def PluginInfo.toValue (p : PluginInfo) : Value :=
  .record [("name", str p.name), ("internal_name", str p.internalName), ("version", str p.version),
    ("author", str p.author), ("description", str p.description), ("categories", p.categories),
    ("keywords", p.keywords)]

def Command.toValue (c : Command) : Value :=
  .record ([("name", str c.name), ("internal_name", str c.internalName), ("match", str c.matchText),
    ("pattern", str c.pattern), ("description", c.description)] ++ c.response.fields)

def Action.toValue (a : Action) : Value :=
  .record ([("name", str a.name), ("internal_name", str a.internalName), ("when", a.triggers),
    ("description", a.description), ("params", a.params), ("types", a.types)] ++
    a.response.fields)

def Definition.toValue (d : Definition) : Value :=
  .record [("plugin", d.plugin.toValue), ("commands", .list (d.commands.map Command.toValue)),
    ("actions", .list (d.actions.map Action.toValue)), ("config", d.config)]

def normalize (source : Text) (v : Value) : Outcome Value :=
  (Definition.ofValue source v).map Definition.toValue

end PluginKit.Script
