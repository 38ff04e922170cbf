import PluginKit.Registrar.Basic
import PluginKit.Registrar.Context

/-!
# Executing a component

A component is found by its name, commands first, and its handler is run in a fresh context. Whatever the
handler returns or throws, the answer says whether it succeeded, what it logged and which messages it sent
before it ended. Only a handler that throws nothing at all, that is null or undefined, is not answered.
-/

namespace PluginKit.Registrar

structure Answer where
  success : Bool
  log : Datum
  messages : List Message

structure Execution where
  outcome : Attempt Answer
  progress : Progress

def promiseText : Text := "[object Promise]"

def Progress.step (p : Progress) (c : Context) : Step → Progress × Attempt Unit
  | .call name args =>
    match p.call c name args with
    | (p, .ok d) => ({ p with trace := p.trace ++ [d] }, .ok ())
    | (p, .error e) => (p, .error e)
  | .echo name args =>
    match p.call c name args with
    | (p, .ok d) =>
      let sent := if ((Method.ofName? name).map Method.isLater).getD false then .text promiseText else d
      match p.sendText sent with
      | (p, .ok _) => (p, .ok ())
      | (p, .error e) => (p, .error e)
    | (p, .error e) => (p, .error e)
  | .read key => ({ p with trace := p.trace ++ [c.property key] }, .ok ())

def Progress.steps (p : Progress) (c : Context) : List Step → Progress × Attempt Unit
  | [] => (p, .ok ())
  | s :: rest =>
    match p.step c s with
    | (p, .ok ()) => p.steps c rest
    | (p, .error e) => (p, .error e)

def Ending.outcome : Ending → Attempt Datum
  | .returns d => .ok d
  | .fails message => .error (.error .plain message)
  | .throws d => .error (.datum d)

def Progress.handle (p : Progress) (c : Context) : Handler → Progress × Attempt Datum
  | .reply answer => (p.add .text answer, .ok (.object [("success", .bool true)]))
  | .steps steps ending =>
    match p.steps c steps with
    | (p, .ok ()) => (p, ending.outcome)
    | (p, .error e) => (p, .error e)

def saysFailed (result : Datum) : Bool :=
  match result.property "success" with
  | .bool false => true
  | _ => false

/-- What is logged about something thrown: its message, if it has one that is not empty, else its text. Null
and undefined cannot even be asked for a message. -/
def Thrown.reason (t : Thrown) : Attempt Text :=
  match t with
  | .error _ message => if message.isEmpty then t.toText else .ok message
  | .datum .null => .error (.typeError "Cannot read properties of null (reading 'message')")
  | .datum .undefined => .error (.typeError "Cannot read properties of undefined (reading 'message')")
  | .datum d =>
    let message := d.property "message"
    if message.truthy then message.toText else d.toText

/-- The answer after a handler has ended, and the progress, to which a failure adds a line of the log. -/
def conclude (c : Context) (p : Progress) (ended : Attempt Datum) : Execution :=
  match ended with
  | .ok result =>
    ⟨.ok ⟨!saysFailed result, (result.property "log").orElse (.text ""), p.messages⟩, p⟩
  | .error t =>
    match t.reason with
    | .error e => ⟨.error e, p⟩
    | .ok reason =>
      match p.writeLog c "ERROR: " [.text ("执行失败：" ++ reason)] with
      | (p, .error e) => ⟨.error e, p⟩
      | (p, .ok _) =>
        match t.toText with
        | .error e => ⟨.error e, p⟩
        | .ok log => ⟨.ok ⟨false, .text log, p.messages⟩, p⟩

def Progress.execute (p : Progress) (c : Context) : Datum → Progress × Attempt Datum
  | .handler h => p.handle c h
  | _ => (p, .ok .undefined)

/-- The component that a name stands for: a command if there is one, else an action. -/
def Registry.component? (r : Registry) (name : Datum) : Option Component :=
  match find? name r.commands with
  | some c => some c
  | none => find? name r.actions

def Registry.execute (r : Registry) (name context : Datum) : Execution :=
  match r.component? name with
  | none =>
    match name.toText with
    | .ok s => ⟨.ok ⟨false, .text ("未找到组件：" ++ s), []⟩, .start⟩
    | .error e => ⟨.error e, .start⟩
  | some component =>
    match Context.ofDatum context with
    | .error e => ⟨.error e, .start⟩
    | .ok c =>
      let (p, ended) := Progress.start.execute c (component.config.property "execute")
      conclude c p ended

def Answer.toDatum (a : Answer) : Datum :=
  .object [("success", .bool a.success), ("log", a.log),
    ("messages", .array (a.messages.map Message.toDatum))]

end PluginKit.Registrar
