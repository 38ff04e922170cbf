import PluginKit.Arguments
import PluginKit.Value.Access

/-!
# Components of a reply

A reply is made of components, each one message: its type, its content and further settings, such as whether
to show that the bot is typing.
-/

namespace PluginKit.Reply

open Value (str)

structure Component where
  type : Value
  content : Value
  extra : List (Text × Value)

namespace Component

def reserved : List Text := ["self", "type_", "content"]

def make (type content : Value) (extra : List (Text × Value)) : Outcome Component :=
  if extra.any fun e => reserved.contains e.1 then .error (.misuse .wrongArguments)
  else .ok ⟨type, content, extra⟩

def text (content typing replyTo : Value) : Component :=
  ⟨str "text", content, [("typing", typing), ("reply_to", replyTo)]⟩

def emoji (data : Value) : Component := ⟨str "emoji", data, []⟩

def image (data : Value) : Component := ⟨str "image", data, []⟩

/-- The component for a type and a content, the first two elements of a sequence. -/
def ofPair (pair : Value) : Outcome Component := do
  let type ← pair.element 0
  let content ← pair.element 1
  return ⟨type, content, []⟩

def setting (c : Component) (name : Text) (default : Value) : Value :=
  ((c.extra.find? (·.1 == name)).map (·.2)).getD default

def previewLength : Nat := 40

def preview (c : Component) : Outcome Value := do
  if previewLength < (← c.content.length) then
    (← c.content.front previewLength).append (str "...")
  else return c.content

def describe (c : Component) : Outcome Text := do
  let preview ← c.preview
  return "ReplyComponent(type=" ++ (← c.type.literal) ++ ", content=" ++ (← preview.literal) ++ ")"

end Component

/-! ### Making components by name -/

inductive Maker where
  | text
  | emoji
  | image
  | pair
  deriving DecidableEq, Repr

namespace Maker

def parameters : Maker → List (Parameter Value)
  | text => [.needed "content", .withDefault "typing" (.bool false), .withDefault "reply_to" (str "")]
  | emoji => [.needed "base64_data"]
  | image => [.needed "base64_data"]
  | pair => [.needed "t"]

def make : Maker → List Value → Outcome Component
  | text, [content, typing, replyTo] => .ok (Component.text content typing replyTo)
  | emoji, [data] => .ok (Component.emoji data)
  | image, [data] => .ok (Component.image data)
  | pair, [v] => Component.ofPair v
  | _, _ => .error (.misuse .wrongArguments)

def apply (m : Maker) (args : List Value) (named : List (Text × Value)) : Outcome Component := do
  m.make (← bindArguments m.parameters args named)

end Maker

end PluginKit.Reply
