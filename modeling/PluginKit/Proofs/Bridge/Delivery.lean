import PluginKit.Bridge.Loader
import PluginKit.Proofs.Bridge.RunnerScript
import PluginKit.Proofs.Host
import PluginKit.Proofs.Registrar.Printed
import PluginKit.Proofs.Registrar.Sends

/-!
# Delivery of messages

A component of a plugin file is executed by its class: the registrar runs the handler and answers, the answer is
printed and read again, and its messages are sent on through the host. The calls that the host sees are those of
the messages that are not empty, in their order and once each, whether the handler returns or throws
(`execute_delivers`). The one thing that can get in the way is a log that is too deep for the reader: then
nothing is sent and the execution counts as failed.
-/

namespace PluginKit.Bridge

open Registrar (Message MessageKind Sender nonEmpty Answer)
open Host (run_bind_ok run_lift_ok)
open Json (joinHalves)

/-! ### Sending -/

def hostFunction : MessageKind → HostFunction
  | .text => .sendText
  | .image => .sendImage
  | .emoji => .sendEmoji

def hostCall (streamId : Value) (m : Message) : HostCall :=
  ⟨hostFunction m.kind, [.str (joinHalves m.content), streamId], []⟩

theorem channel_hostFunction (k : MessageKind) : (hostFunction k).channel = .send := by
  cases k <;> rfl

theorem get_type (m : Message) (d : Value) : m.received.get "type" d = .ok (.str m.kind.name) := by
  rw [Message.received, Value.get_named, Value.field?_named_self]
  rfl

theorem get_content (m : Message) (d : Value) : m.received.get "content" d = .ok (.str (joinHalves m.content)) := by
  rw [Message.received, Value.get_named, Value.field?_named_of_ne (by decide), Value.field?_named_self]
  rfl

theorem ofType?_kindName (k : MessageKind) : HostFunction.ofType? (.str k.name) = some (hostFunction k) := by
  cases k <;> rfl

theorem sendMessage_did (streamId : Value) (m : Message) {h : Host} (hs : h.Sends) :
    ∃ h', (sendMessage streamId m.received).run.run h = (.ok (), h') ∧
      h.Did ((nonEmpty [m]).map (hostCall streamId)) [] h' ∧ h'.Sends := by
  rw [sendMessage, get_type, get_content, run_bind_ok (run_lift_ok _ h),
    run_bind_ok (run_lift_ok _ h), ofType?_kindName]
  cases hm : m.content with
  | nil => 
    have hp : nonEmpty [m] = [] := by simp [nonEmpty, hm]
    rw [hp]
    exact ⟨h, rfl, .refl h, hs⟩
  | cons c s =>
    have hp : nonEmpty [m] = [m] := by simp [nonEmpty, hm]
    have ht : (Value.str (joinHalves (c :: s))).truthy = true := by
      simp [Value.truthy, Json.joinHalves_eq_nil]
    obtain ⟨v, h', hcall, hdid, hs'⟩ := Host.call_did hs (channel_hostFunction m.kind)
      [.str (joinHalves (c :: s)), streamId] []
    refine ⟨h', ?_, ?_, hs'⟩
    · simp only [ht, if_true]
      rw [run_bind_ok hcall]
      rfl
    · rw [hp]
      simpa [hostCall, hm] using hdid

theorem sendMessages_did (streamId : Value) (ms : List Message) : ∀ {h : Host}, h.Sends →
    ∃ h', (sendMessages streamId (ms.map Message.received)).run.run h = (.ok (), h') ∧
      h.Did ((nonEmpty ms).map (hostCall streamId)) [] h' ∧ h'.Sends := by
  induction ms with
  | nil => exact fun hs => ⟨_, rfl, .refl _, hs⟩
  | cons m ms ih =>
    intro h hs
    obtain ⟨h₁, hrun₁, hdid₁, hs₁⟩ := sendMessage_did streamId m hs
    obtain ⟨h₂, hrun₂, hdid₂, hs₂⟩ := ih hs₁
    refine ⟨h₂, ?_, ?_, hs₂⟩
    · rw [List.map_cons, sendMessages, run_bind_ok hrun₁]
      exact hrun₂
    · have hp : nonEmpty (m :: ms) = nonEmpty [m] ++ nonEmpty ms := Registrar.nonEmpty_append [m] ms
      rw [hp, List.map_append]
      exact hdid₁.trans hdid₂

/-! ### Returning -/

def returned (role : Role) (success : Bool) (log : Value) : List Value :=
  match role with
  | .command => [.bool success, log, .bool true]
  | .action => [.bool success, log]

theorem get_success (a : Answer) (log : Option Value) (d : Value) :
    (a.received log).get "success" d = .ok (.bool a.success) := by
  rw [Answer.received, Value.get_named]
  cases log with
  | none => rw [Answer.receivedFields, Value.field?_named_self]; rfl
  | some v => rw [Answer.receivedFields, Value.field?_named_self]; rfl

theorem get_messages (a : Answer) (log : Option Value) (d : Value) :
    (a.received log).get "messages" d = .ok (.list (a.messages.map Message.received)) := by
  rw [Answer.received, Value.get_named]
  cases log with
  | none =>
    rw [Answer.receivedFields, Value.field?_named_of_ne (by decide), Value.field?_named_self]
    rfl
  | some v =>
    rw [Answer.receivedFields, Value.field?_named_of_ne (by decide), Value.field?_named_of_ne (by decide),
      Value.field?_named_self]
    rfl

theorem get_log (a : Answer) (log : Option Value) (d : Value) : (a.received log).get "log" d = .ok (log.getD d) := by
  rw [Answer.received, Value.get_named]
  cases log with
  | none =>
    rw [Answer.receivedFields, Value.field?_named_of_ne (by decide), Value.field?_named_of_ne (by decide)]
    rfl
  | some v =>
    rw [Answer.receivedFields, Value.field?_named_of_ne (by decide), Value.field?_named_self, Option.getD_some]

/-- The messages of an answer are sent, and what it says is returned. -/
theorem deliver_did (role : Role) (streamId : Value) (a : Answer) (log : Option Value) {h : Host}
    (hs : h.Sends) : ∃ h', (deliver role streamId (a.received log)).run.run h
        = (.ok (returned role a.success (log.getD (.str ""))), h') ∧
      h.Did ((nonEmpty a.messages).map (hostCall streamId)) [] h' := by
  obtain ⟨h', hrun, hdid, -⟩ := sendMessages_did streamId a.messages hs
  refine ⟨h', ?_, hdid⟩
  have helements : (Value.list (a.messages.map Message.received)).elements
      = .ok (a.messages.map Message.received) := rfl
  rw [deliver, get_messages, get_success, get_log, run_bind_ok (run_lift_ok _ h), helements,
    run_bind_ok (run_lift_ok _ h), run_bind_ok hrun, run_bind_ok (run_lift_ok _ h'),
    run_bind_ok (run_lift_ok _ h')]
  cases role <;> rfl

/-! ### Running -/

open Registrar (Datum Context)

theorem ofFields_context (a b c d : Datum) :
    Datum.ofFields [("stream_id", a), ("plugin_name", b), ("matched_groups", c), ("action_data", d)]
      = .object [("stream_id", a), ("plugin_name", b), ("matched_groups", c), ("action_data", d)] := by
  rfl

theorem ofValue_context (a b c d : Value) :
    Datum.ofValue (.record [("stream_id", a), ("plugin_name", b), ("matched_groups", c), ("action_data", d)])
      = .object [("stream_id", .ofValue a), ("plugin_name", .ofValue b), ("matched_groups", .ofValue c),
          ("action_data", .ofValue d)] := by
  rw [← ofFields_context, Value.record, Datum.ofValue]
  simp only [List.map_cons, List.map_nil, Datum.ofEntries]
  rfl

theorem ofDatum_contextData (pluginName : Text) (o : Occasion) (role : Role) :
    ∃ c, Context.ofDatum (Datum.ofValue (contextData pluginName o role)) = .ok c ∧
      c.pluginName = .text pluginName := by
  have hname : Datum.ofValue (.str pluginName) = .text pluginName := by rw [Datum.ofValue]
  cases role with
  | command =>
    rw [contextData, ofValue_context, hname]
    exact ⟨_, rfl, rfl⟩
  | action =>
    rw [contextData, ofValue_context, hname]
    exact ⟨_, rfl, rfl⟩

/-- The interpreter that runs the plugin file of a loader for a component. The plugin file makes the given calls;
`errors` is what it writes where it is ended by a failure. -/
def Loader.interpreter (l : Loader) (errors : Text) (calls : List Registrar.Call) (cls : ComponentClass)
    (o : Occasion) : Interpreter :=
  ⟨.ready, scriptExit errors calls (Datum.ofValue cls.name)
    (Datum.ofValue (contextData l.pluginName o cls.role))⟩

/-- A run with an interpreter that is there comes to what the interpreter comes to. -/
theorem run_ready {i : Interpreter} (hready : i.probe = .ready) (sdkPath pluginPath name : Text) {context : Value}
    {s : Text} (h : Json.write Json.compact context = .ok s) :
    ∃ script, run i sdkPath pluginPath (.str name) context = .ok ⟨i.exit.result.1, i.exit.result.2, some script⟩ := by
  rw [run, hready, runnerScript_eq, h]
  exact ⟨_, rfl⟩

theorem result_print (a : Answer) : (Exit.finished 0 a.print "").result =
    match Json.read a.print with
    | .ok v => (v, [])
    | .error e => (failure (e.message a.print), [⟨.error, "[JsBridge] 执行 JS 时出错：" ++ e.message a.print⟩]) := by
  have hne : a.print.isEmpty = false := by rw [a.print_eq]; rfl
  rw [Exit.result]
  simp only [a.trim_print, hne]
  rfl

/-- A component whose handler sends is about to be executed by its class. -/
structure Executable (l : Loader) (calls : List Registrar.Call) (cls : ComponentClass) (o : Occasion)
    (w : Sender) (h : Host) : Prop where
  present : h.present = true
  sends : h.Sends
  /-- The plugin file makes its calls, and the name of the class then stands for the handler. -/
  registered : ∃ s name component, Registrar.State.initial.performAll calls = (s, .ok ()) ∧
    cls.name = .str name ∧ s.registry.component? (.text name) = some component ∧
    component.config.property "execute" = .handler w.handler
  context : ∃ context, Json.write Json.compact (contextData l.pluginName o cls.role) = .ok context

section
variable {l : Loader} {calls : List Registrar.Call} {cls : ComponentClass} {o : Occasion} {w : Sender} {h : Host}

theorem Executable.exit_eq (he : Executable l calls cls o w h) (errors : Text) :
    ∃ a : Answer, (l.interpreter errors calls cls o).exit = .finished 0 a.print "" ∧
      (a.success = true ↔ w.Succeeds) ∧ a.log = w.log ∧ nonEmpty a.messages = w.messages := by
  obtain ⟨s, name, component, hcalls, hname, hcomponent, hexecute⟩ := he.registered
  obtain ⟨c, hc, hplugin⟩ := ofDatum_contextData l.pluginName o cls.role
  have hdatum : Datum.ofValue cls.name = .text name := by rw [hname, Datum.ofValue]
  have htext : c.pluginName.toText = .ok l.pluginName := by rw [hplugin, Datum.toText]
  obtain ⟨a, ha, hrest⟩ := s.registry.execute_sender w hcomponent hexecute hc htext
  refine ⟨a, ?_, hrest⟩
  show scriptExit errors calls (Datum.ofValue cls.name) _ = _
  rw [scriptExit, hcalls, hdatum]
  simp only [ha]

/-- Executing sends the messages of the result that the interpreter gives. -/
theorem Executable.execute_eq (he : Executable l calls cls o w h) (sdkPath : Text) (i : Interpreter)
    (hready : i.probe = .ready) :
    (l.execute sdkPath i cls o).run.run h =
      (deliver cls.role o.streamId i.exit.result.1).run.run { h with logs := h.logs ++ i.exit.result.2 } := by
  obtain ⟨-, name, -, -, hname, -⟩ := he.registered
  obtain ⟨context, hcontext⟩ := he.context
  obtain ⟨script, hscript⟩ := run_ready hready sdkPath l.path name hcontext
  have hrun : l.run sdkPath i cls o = .ok ⟨i.exit.result.1, i.exit.result.2, some script⟩ := by
    rw [Loader.run, hname, hscript]
  rw [Loader.execute, run_bind_ok (Host.run_require he.present), hrun,
    run_bind_ok (run_lift_ok _ h), run_bind_ok (Host.run_log h _)]

/-- If the log can be read, the messages reach the host. -/
theorem Executable.delivers (he : Executable l calls cls o w h) (sdkPath errors : Text)
    (hdepth : w.log.jsonDepth < Json.usualLimits.depth) :
    ∃ success log h', (l.execute sdkPath (l.interpreter errors calls cls o) cls o).run.run h
        = (.ok (returned cls.role success log), h') ∧
      (success = true ↔ w.Succeeds) ∧ h.Did (w.messages.map (hostCall o.streamId)) [] h' := by
  obtain ⟨a, hexit, hsuccess, hlog, hmessages⟩ := he.exit_eq errors
  obtain ⟨log, hread⟩ := a.read_print (hlog ▸ hdepth)
  obtain ⟨h', hrun, hdid⟩ := deliver_did cls.role o.streamId a log (he.sends.logged [])
  rw [he.execute_eq sdkPath _ rfl, hexit, result_print, hread]
  refine ⟨a.success, log.getD (.str ""), h', hrun, hsuccess, ?_⟩
  rw [← hmessages]
  exact (Host.Did.logged h []).trans hdid

/-- A run that failed is for the class an answer without messages. -/
theorem failure_eq (reason : Text) : failure reason = Answer.received ⟨false, .null, []⟩ (some (.str reason)) := by
  simp [failure, Value.record, Answer.received, Answer.receivedFields, Value.named]

/-- If the log is too deep to be read, nothing is sent. -/
theorem Executable.loses (he : Executable l calls cls o w h) (sdkPath errors : Text)
    (hdepth : Json.usualLimits.depth ≤ w.log.jsonDepth) :
    ∃ log h' reason, (l.execute sdkPath (l.interpreter errors calls cls o) cls o).run.run h
        = (.ok (returned cls.role false log), h') ∧ h.Did [] [⟨.error, reason⟩] h' := by
  obtain ⟨a, hexit, -, hlog, -⟩ := he.exit_eq errors
  obtain ⟨collection, hread⟩ := a.read_print_deep (hlog ▸ hdepth)
  let e : Json.ReadFailure := .fault (.tooDeep s!" while decoding a JSON {collection} from a unicode string")
  let entry : LogEntry := ⟨.error, "[JsBridge] 执行 JS 时出错：" ++ e.message a.print⟩
  obtain ⟨h', hrun, hdid⟩ := deliver_did cls.role o.streamId ⟨false, .null, []⟩
    (some (.str (e.message a.print))) (he.sends.logged [entry])
  rw [← failure_eq] at hrun
  rw [he.execute_eq sdkPath _ rfl, hexit, result_print, hread]
  exact ⟨_, h', _, hrun, (Host.Did.logged h [entry]).trans hdid⟩

end

/-- A plugin file that registers a command `greet` with the given handler. -/
def greetCalls (w : Sender) : List Registrar.Call :=
  [.command [.object [("name", .text "greet"), ("execute", .handler w.handler)]]]

def greetClass : ComponentClass := .command (.str "greet") (.str "") (.str "^/greet$")

def greetLoader : Loader := ⟨"/p/plugin.js", "plugin.js", "p", none⟩

def greetOccasion : Occasion := ⟨.str "s1", none, .dict []⟩

/-- A host that answers everything with nothing. -/
def quietHost : Host := ⟨true, fun _ => ⟨[], .gives .null⟩, [], []⟩

theorem greet_executable (w : Sender) : Executable greetLoader (greetCalls w) greetClass greetOccasion w quietHost where
  present := rfl
  sends := ⟨nofun, _, rfl⟩
  registered := ⟨_, "greet", _, rfl, rfl, rfl, rfl⟩
  context := ⟨_, rfl⟩

/-- A handler that sends a text and an emoji among empty messages, and then throws. -/
def thrower : Sender :=
  ⟨[⟨.send, some "你好"⟩, ⟨.sendImage, none⟩, ⟨.sendText, some ""⟩, ⟨.sendEmoji, some "aGk="⟩], .error "boom"⟩

def nestedArrays : Nat → Datum
  | 0 => .array []
  | n + 1 => .array [nestedArrays n]

theorem jsonDepth_nestedArrays (n : Nat) : (nestedArrays n).jsonDepth = n + 1 := by
  induction n with
  | zero => rw [nestedArrays, Datum.jsonDepth, Datum.itemsDepth]
  | succ n ih =>
    rw [nestedArrays, Datum.jsonDepth, Datum.itemsDepth, Datum.itemsDepth, ih, Nat.max_zero, Nat.add_comm]

/-- A handler that sends a text and logs arrays inside each other. -/
def deepLogger : Sender := ⟨[⟨.send, some "hi"⟩], .ok (.object [("log", nestedArrays 984)])⟩

end PluginKit.Bridge
