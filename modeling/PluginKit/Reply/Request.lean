import PluginKit.Reply.Builder
import PluginKit.Reply.Model

/-!
# Requests

What a plugin component can ask for, with arguments by name. There are two groups of operations: those that
build replies and those that ask models.
-/

namespace PluginKit.Reply

open Value (str)

inductive Operation where
  | stream
  | chat
  | generateReply
  | generateCustomReply
  | reviseReply
  | sendComponents
  | inject
  | previewPrompt
  | availableModels
  | defaultModel
  | callModel
  | replyWithContext
  | callModelWithTools
  deriving DecidableEq, Repr

inductive Result where
  | value (v : Value)
  | revised (success : Value) (components : List Component)

namespace Operation

def builderNames : List (Text × Operation) :=
  [("_stream_id", stream), ("_chat_stream", chat), ("generate_reply", generateReply),
    ("generate_custom_reply", generateCustomReply), ("rewrite_reply", reviseReply),
    ("send_components", sendComponents), ("inject_before", inject), ("inject_after", inject),
    ("get_prompt_preview", previewPrompt)]

def modifierNames : List (Text × Operation) :=
  [("_stream_id", stream), ("_chat_stream", chat), ("get_available_models", availableModels),
    ("get_default_model", defaultModel), ("call_model", callModel),
    ("generate_with_extra_context", replyWithContext), ("call_model_with_tools", callModelWithTools),
    ("get_actual_prompt", previewPrompt)]

def ofBuilderName? (name : Text) : Option Operation :=
  (builderNames.find? (·.1 == name)).map (·.2)

def ofModifierName? (name : Text) : Option Operation :=
  (modifierNames.find? (·.1 == name)).map (·.2)

def optional (name : Text) (default : Value) : Parameter Batch := .withDefault name (.value default)

/-- A parameter that is given by position only, and need not be given. -/
def positional : Parameter Batch := .withDefault [] (.components [])

def parameters : Operation → List (Parameter Batch)
  | stream => []
  | chat => []
  | generateReply =>
    [optional "extra_info" (str ""), optional "reply_to" (str ""), optional "prepend" .null,
      optional "append" .null, optional "enable_tool" (.bool false),
      optional "return_prompt" (.bool false)]
  | generateCustomReply => [.needed "prompt", optional "send_result" (.bool true)]
  | reviseReply => [.needed "raw_reply", optional "reason" (str ""), optional "reply_to" (str "")]
  | sendComponents => [.needed "components"]
  | inject => [positional]
  | previewPrompt => [optional "extra_info" (str "")]
  | availableModels => []
  | defaultModel => []
  | callModel =>
    [.needed "prompt", optional "model_name" .null, optional "temperature" .null,
      optional "max_tokens" .null, optional "request_type" (str "plugin.advanced")]
  | replyWithContext =>
    [.needed "extra_info", optional "reply_to" (str ""), optional "enable_tool" (.bool false),
      optional "return_prompt" (.bool false)]
  | callModelWithTools =>
    [.needed "prompt", optional "tool_names" .null, optional "model_name" .null,
      optional "temperature" .null, optional "max_tokens" .null]

end Operation

/-- The components of a batch; a value in their place stands for none. -/
def Batch.items : Batch → List Component
  | .components items => items
  | .value _ => []

def Result.pair (p : Value × Value) : Result := .value (.tuple [p.1, p.2])

def Owner.run (o : Owner) : Operation → List Batch → HostM Result
  | .stream, _ => return .value o.stream
  | .chat, _ => return .value o.chat
  | .generateReply, [.value info, .value replyTo, before, after, .value tool, .value prompt] =>
    return .pair (← o.generateReply info replyTo before after tool prompt)
  | .generateCustomReply, [.value prompt, .value send] =>
    return .pair (← o.generateCustomReply prompt send)
  | .reviseReply, [.value text, .value reason, .value replyTo] => do
    let (success, components) ← o.reviseReply text reason replyTo
    return .revised success components
  | .sendComponents, [components] => return .value (← o.sendBatch components)
  | .inject, [components] => do
    let _ ← o.sendBatch (.components components.items)
    return .value .null
  | .previewPrompt, [.value info] => return .value (← o.previewPrompt info)
  | .availableModels, _ => return .value (← Reply.availableModels)
  | .defaultModel, _ => return .value (← Reply.defaultModel)
  | .callModel, [.value prompt, .value name, .value temperature, .value tokens, .value type] =>
    return .pair (← Reply.callModel prompt name temperature tokens type)
  | .replyWithContext, [.value info, .value replyTo, .value tool, .value prompt] =>
    return .value (← o.replyWithContext info replyTo tool prompt)
  | .callModelWithTools, [.value prompt, .value tools, .value name, .value temperature, .value tokens] => do
    let (success, content, calls) ← Reply.callModelWithTools prompt tools name temperature tokens
    return .value (.tuple [success, content, calls])
  | _, _ => throw (.misuse .wrongArguments)

def Owner.request (o : Owner) (op : Operation) (args : List Batch) (named : List (Text × Batch)) :
    HostM Result := do
  o.run op (← Host.lift (bindArguments op.parameters args named))

end PluginKit.Reply
