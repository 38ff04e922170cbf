import PluginKit.Host
import PluginKit.Reply.Component
import PluginKit.Reply.Owner

/-!
# Building replies

A reply that the host writes can be surrounded by components of one's own, or be replaced by an answer to a
prompt of one's own. Whatever is sent is sent in order, one call of the host for each component, and a message
that the host does not accept does not keep the others back.
-/

namespace PluginKit.Reply

open Value (str)

/-- What is given to be sent: components, or a value in their place. -/
inductive Batch where
  | components (items : List Component)
  | value (v : Value)

def Batch.present : Batch → Bool
  | components items => !items.isEmpty
  | value v => v.truthy

namespace Owner

def sendComponent (o : Owner) (c : Component) : HostM Value :=
  match HostFunction.ofType? c.type with
  | some .sendText =>
    Host.call .sendText [c.content, o.stream]
      [("typing", c.setting "typing" (.bool false)), ("reply_to", c.setting "reply_to" (str ""))]
  | some function => Host.call function [c.content, o.stream] []
  | none =>
    Host.call .sendCustom [c.type, c.content, o.stream]
      [("display_message", c.setting "display_message" (str ""))]

/-- Sends components in order. The result is the first answer that does not count as present, or else the
last one; `soFar` is the result for those before. -/
def sendEach (o : Owner) (soFar : Value) : List Component → HostM Value
  | [] => pure soFar
  | c :: rest => do
    let answer ← o.sendComponent c
    o.sendEach (if soFar.truthy then answer else soFar) rest

/-- Sends components in order, and says whether all of them were accepted. A value in their place has to have
elements, and none of them can be sent. -/
def sendBatch (o : Owner) (b : Batch) : HostM Value := do
  Host.require
  match b with
  | .components items => o.sendEach (.bool true) items
  | .value v =>
    match ← Host.lift v.elements with
    | [] => return .bool true
    | first :: _ => throw (.noMember first.kind "type")

def sendOptional (o : Owner) (b : Batch) : HostM Unit := do
  if b.present then
    let _ ← o.sendBatch b

/-- Sends one part of a reply that the host has written: a type and a content. -/
def sendPart (o : Owner) (part : Value) : HostM Unit := do
  match ← Host.lift (part.unpack 2) with
  | [type, content] =>
    match HostFunction.ofType? type with
    | some function =>
      let _ ← Host.call function [content, o.stream] []
    | none =>
      let _ ← Host.call .sendCustom [type, content, o.stream] []
  | _ => pure ()

def sendParts (o : Owner) : List Value → HostM Unit
  | [] => pure ()
  | part :: rest => do
    o.sendPart part
    o.sendParts rest

def three (v : Value) : Outcome (Value × Value × Value) := do
  match ← v.unpack 3 with
  | [a, b, c] => return (a, b, c)
  | _ => .error (.misuse (.notUnpackable v.kind))

/-- Lets the host write a reply and sends it between components of one's own. Gives whether the host
succeeded, and the prompt if it was asked for. -/
def generateReply (o : Owner) (extraInfo replyTo : Value) (before after : Batch)
    (enableTool returnPrompt : Value) : HostM (Value × Value) := do
  Host.require
  o.sendOptional before
  let reply ← Host.call .generateReply []
    [("chat_stream", o.chat), ("extra_info", extraInfo), ("reply_to", replyTo),
      ("enable_tool", enableTool), ("return_prompt", returnPrompt)]
  let (success, parts, prompt) ← Host.lift (three reply)
  if success.truthy then
    o.sendParts (← Host.lift parts.elements)
  o.sendOptional after
  return (success, if returnPrompt.truthy then prompt else .null)

/-- Lets the host answer a prompt and, if wanted, sends the answer. -/
def generateCustomReply (o : Owner) (prompt sendResult : Value) : HostM (Value × Value) := do
  Host.require
  match ← Host.call .respond [] [("chat_stream", o.chat), ("prompt", prompt)] with
  | .null =>
    Host.log .warning "[AdvancedReplyBuilder] generate_response_custom 返回 None"
    return (.bool false, .null)
  | answer =>
    if sendResult.truthy then
      let _ ← Host.call .sendText [answer, o.stream] []
    return (.bool true, answer)

/-- Lets the host put a text into its own words. Gives whether it succeeded, and the components of the
result. -/
def reviseReply (o : Owner) (text reason replyTo : Value) : HostM (Value × List Component) := do
  Host.require
  let reply ← Host.call .reviseReply []
    [("chat_stream", o.chat), ("raw_reply", text), ("reason", reason), ("reply_to", replyTo)]
  let (success, parts, _) ← Host.lift (three reply)
  if success.truthy then
    let components ← Host.lift do (← parts.elements).mapM Component.ofPair
    return (success, components)
  else return (success, [])

def previewPrompt (o : Owner) (extraInfo : Value) : HostM Value := do
  Host.require
  let reply ← Host.call .generateReply []
    [("chat_stream", o.chat), ("extra_info", extraInfo), ("return_prompt", .bool true)]
  let (_, _, prompt) ← Host.lift (three reply)
  return prompt

def replyWithContext (o : Owner) (extraInfo replyTo enableTool returnPrompt : Value) : HostM Value := do
  Host.require
  Host.call .generateReply []
    [("chat_stream", o.chat), ("extra_info", extraInfo), ("reply_to", replyTo),
      ("enable_tool", enableTool), ("return_prompt", returnPrompt)]

end Owner

end PluginKit.Reply
