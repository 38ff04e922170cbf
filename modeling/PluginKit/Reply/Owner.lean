import PluginKit.Value.Basic

/-!
# The owner of a reply

Replies are built on behalf of a component of a plugin, an action or a command, which knows the chat it runs
in. The two kinds of components name the chat in different places, so more than one is looked at.
-/

namespace PluginKit.Reply

/-- What the component on whose behalf a reply is built says about its chat; what it does not say is null. -/
structure Owner where
  streamId : Value
  chatId : Value
  chatStream : Value
  message : Value

/-- The identity of the chat: the first of the two places that counts as present, else an empty text. -/
def Owner.stream (o : Owner) : Value :=
  if o.streamId.truthy then o.streamId
  else if o.chatId.truthy then o.chatId
  else .str ""

/-- The chat itself: the owner's own, or else the one of its message. -/
def Owner.chat (o : Owner) : Value :=
  match o.chatStream with
  | .null =>
    match o.message.view with
    | .dict fields => (Value.field? "chat_stream" fields).getD .null
    | _ => .null
  | v => v

end PluginKit.Reply
