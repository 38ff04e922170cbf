import PluginKit.Log
import PluginKit.Value.Fault

/-!
# The host application

Components run inside a bot, which offers functions to send messages, to write replies and to ask language
models. Each call is noted with its arguments. Functions answer through channels: a channel has answers in
store, which are given one after another, and one that it gives from then on. An answer can also be a failure.
If the bot is not there, nothing can be called.
-/

namespace PluginKit

inductive Channel where
  | send
  | generateReply
  | respond
  | reviseReply
  | models
  | generate
  | generateWithTools
  | tools
  deriving DecidableEq, Repr

inductive HostFunction where
  | sendText
  | sendImage
  | sendEmoji
  | sendCustom
  | generateReply
  | respond
  | reviseReply
  | models
  | generate
  | generateWithTools
  | tools
  deriving DecidableEq, Repr

namespace HostFunction

def name : HostFunction → Text
  | sendText => "text_to_stream"
  | sendImage => "image_to_stream"
  | sendEmoji => "emoji_to_stream"
  | sendCustom => "custom_to_stream"
  | generateReply => "generate_reply"
  | respond => "generate_response_custom"
  | reviseReply => "rewrite_reply"
  | models => "get_available_models"
  | generate => "generate_with_model"
  | generateWithTools => "generate_with_model_with_tools"
  | tools => "get_llm_available_tool_definitions"

/-- The channel of a function. The functions that send share one. -/
def channel : HostFunction → Channel
  | sendText => .send
  | sendImage => .send
  | sendEmoji => .send
  | sendCustom => .send
  | generateReply => .generateReply
  | respond => .respond
  | reviseReply => .reviseReply
  | models => .models
  | generate => .generate
  | generateWithTools => .generateWithTools
  | tools => .tools

/-- The function that sends messages of a type, if the type is one that every chat has. -/
def ofType? (type : Value) : Option HostFunction :=
  if type.isStr "text" then some sendText
  else if type.isStr "image" then some sendImage
  else if type.isStr "emoji" then some sendEmoji
  else none

end HostFunction

inductive HostReply where
  | gives (v : Value)
  | fails (reason : Text)

/-- The answers of a channel: those in store, and the one that follows them. -/
structure Answers where
  stored : List HostReply
  always : HostReply

structure HostCall where
  function : HostFunction
  args : List Value
  named : List (Text × Value)

structure Host where
  present : Bool
  answers : Channel → Answers
  calls : List HostCall
  logs : List LogEntry

/-- Something done with the host, which can end by a fault; what was done before it stays done. -/
abbrev HostM := ExceptT Fault (StateM Host)

namespace Host

def answer (h : Host) (call : HostCall) : HostReply × Host :=
  let channel := call.function.channel
  let answers := h.answers channel
  let noted := { h with calls := h.calls ++ [call] }
  match answers.stored with
  | [] => (answers.always, noted)
  | r :: rest =>
    (r, { noted with answers := fun c => if c = channel then ⟨rest, answers.always⟩ else h.answers c })

def call (function : HostFunction) (args : List Value) (named : List (Text × Value)) : HostM Value := do
  let h ← get
  let (reply, h) := h.answer ⟨function, args, named⟩
  set h
  match reply with
  | .gives v => return v
  | .fails reason => throw (.host reason)

def log (level : Level) (message : Text) : HostM Unit :=
  modify fun h => { h with logs := h.logs ++ [⟨level, message⟩] }

def require : HostM Unit := do
  if (← get).present then return () else throw .noHost

def lift {α : Type} : Outcome α → HostM α
  | .ok a => pure a
  | .error f => throw f

end Host

end PluginKit
