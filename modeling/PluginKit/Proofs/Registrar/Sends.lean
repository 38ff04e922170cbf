import Mathlib.Tactic
import PluginKit.Registrar.Execute

/-!
# Handlers that send

A handler that sends texts, images and emojis, one after another, and then returns a datum or throws an error.
Some of its calls have nothing to send: null, or an empty text. Whatever it returns or throws, the answer to its
execution holds the messages of all its calls in order, and besides them only empty ones
(`Registry.execute_sender`).
-/

namespace PluginKit.Registrar

open List

inductive SendMethod where
  | send
  | sendText
  | sendImage
  | sendEmoji
  deriving DecidableEq, Repr

def SendMethod.name : SendMethod → Text
  | send => "send"
  | sendText => "sendText"
  | sendImage => "sendImage"
  | sendEmoji => "sendEmoji"

def SendMethod.kind : SendMethod → MessageKind
  | send => .text
  | sendText => .text
  | sendImage => .image
  | sendEmoji => .emoji

/-- A call of a method that sends, with a text or with null. -/
structure SendCall where
  method : SendMethod
  content : Option Text
  deriving DecidableEq, Repr

def SendCall.step (c : SendCall) : Step :=
  .call c.method.name [match c.content with | some s => .text s | none => .null]

/-- The message of a call, unless there is nothing to send. -/
def SendCall.message? (c : SendCall) : Option Message :=
  match c.content with
  | some [] => none
  | some s => some ⟨c.method.kind, s⟩
  | none => none

/-- A handler that sends and then returns a datum or throws an error with a message. -/
structure Sender where
  calls : List SendCall
  outcome : Except Text Datum

namespace Sender

def ending (w : Sender) : Ending :=
  match w.outcome with
  | .ok d => .returns d
  | .error message => .fails message

def handler (w : Sender) : Handler :=
  .steps (w.calls.map SendCall.step) w.ending

def messages (w : Sender) : List Message :=
  w.calls.filterMap SendCall.message?

/-- What is logged: the log of the datum, or the text of the error. -/
def log (w : Sender) : Datum :=
  match w.outcome with
  | .ok d => (d.property "log").orElse (.text "")
  | .error message => .text (if message.isEmpty then "Error" else "Error: " ++ message)

/-- The handler threw nothing, and what it returned does not say that it failed. -/
def Succeeds (w : Sender) : Prop :=
  ∃ d, w.outcome = .ok d ∧ d.property "success" ≠ .bool false

end Sender

def nonEmpty (ms : List Message) : List Message :=
  ms.filter fun m => !m.content.isEmpty

theorem nonEmpty_append (ms ns : List Message) : nonEmpty (ms ++ ns) = nonEmpty ms ++ nonEmpty ns :=
  filter_append ms ns

/-! ### Steps -/

/-- What a call adds to the messages. A text is added even if it is empty. -/
def SendCall.added (c : SendCall) : List Message :=
  match c.method.kind, c.content with
  | .text, some s => [⟨.text, s⟩]
  | kind, some (x :: s) => [⟨kind, x :: s⟩]
  | _, _ => []

theorem SendCall.nonEmpty_added (call : SendCall) : nonEmpty call.added = call.message?.toList := by
  obtain ⟨m, content⟩ := call
  rcases content with _ | _ | ⟨x, s⟩ <;> cases m <;> rfl

theorem SendCall.step_added (call : SendCall) (p : Progress) (c : Context) :
    ∃ p', p.step c call.step = (p', .ok ()) ∧ p'.messages = p.messages ++ call.added := by
  obtain ⟨m, content⟩ := call
  have hstep : ∀ (q : Progress) (d : Datum), p.call c m.name [d] = (q, .ok .undefined) →
      p.step c (.call m.name [d]) = ({ q with trace := q.trace ++ [.undefined] }, .ok ()) := by
    intro q d h
    rw [Progress.step, h]
  rcases content with _ | _ | ⟨x, s⟩
  · refine ⟨_, hstep p .null (by cases m <;> rfl), ?_⟩
    cases m <;> exact (append_nil _).symm
  · cases m with
    | send => exact ⟨_, hstep (p.add .text []) _ rfl, rfl⟩
    | sendText => exact ⟨_, hstep (p.add .text []) _ rfl, rfl⟩
    | sendImage => exact ⟨_, hstep p _ rfl, (append_nil _).symm⟩
    | sendEmoji => exact ⟨_, hstep p _ rfl, (append_nil _).symm⟩
  · refine ⟨_, hstep (p.add m.kind (x :: s)) _ (by cases m <;> rfl), ?_⟩
    cases m <;> rfl

theorem sends_steps (calls : List SendCall) (c : Context) : ∀ p : Progress,
    ∃ p', p.steps c (calls.map SendCall.step) = (p', .ok ()) ∧
      nonEmpty p'.messages = nonEmpty p.messages ++ calls.filterMap SendCall.message? := by
  induction calls with
  | nil => exact fun p => ⟨p, rfl, by simp⟩
  | cons call calls ih =>
    intro p
    obtain ⟨p₁, hstep, hadded⟩ := call.step_added p c
    obtain ⟨p₂, hsteps, hrest⟩ := ih p₁
    refine ⟨p₂, ?_, ?_⟩
    · rw [map_cons, Progress.steps, hstep]
      exact hsteps
    · rw [hrest, hadded, nonEmpty_append, call.nonEmpty_added, append_assoc]
      cases hm : call.message? with
      | none => rw [filterMap_cons_none hm]; rfl
      | some m => rw [filterMap_cons_some hm]; rfl

/-! ### Executions -/

theorem saysFailed_eq_false {d : Datum} : saysFailed d = false ↔ d.property "success" ≠ .bool false := by
  unfold saysFailed
  split
  · next h => exact iff_of_false Bool.noConfusion fun hne => hne h
  · next hne => exact iff_of_true rfl fun h => hne h

theorem Progress.writeLog_text (p : Progress) {c : Context} {name : Text}
    (hname : c.pluginName.toText = .ok name) (mark s : Text) :
    p.writeLog c mark [.text s] =
      ({ p with log := p.log ++ ("[JS:" ++ name ++ "] " ++ mark ++ s ++ "\n") }, .ok .undefined) := by
  have hwords : Datum.joinedWith " " [.text s] = .ok s := by rw [Datum.joinedWith, Datum.itemText]
  simp only [Progress.writeLog, hname, hwords]
  rfl

theorem Thrown.reason_error (kind : ErrorKind) (message : Text) :
    ∃ reason, (Thrown.error kind message).reason = .ok reason := by
  show ∃ reason, (if message.isEmpty then (Thrown.error kind message).toText else .ok message) = .ok reason
  split
  · exact ⟨_, rfl⟩
  · exact ⟨_, rfl⟩

theorem conclude_sender (w : Sender) (c : Context) {name : Text} (hname : c.pluginName.toText = .ok name)
    (p : Progress) : ∃ a, (conclude c p w.ending.outcome).outcome = .ok a ∧
      (a.success = true ↔ w.Succeeds) ∧ a.log = w.log ∧ a.messages = p.messages := by
  obtain ⟨calls, outcome⟩ := w
  cases outcome with
  | ok d =>
    refine ⟨_, rfl, ?_, rfl, rfl⟩
    rw [Bool.not_eq_true', saysFailed_eq_false]
    exact ⟨fun h => ⟨d, rfl, h⟩, fun ⟨d', hd, h⟩ => by cases hd; exact h⟩
  | error message =>
    obtain ⟨reason, hreason⟩ := Thrown.reason_error .plain message
    have hlog := p.writeLog_text hname "ERROR: " ("执行失败：" ++ reason)
    have htext : (Thrown.error .plain message).toText
        = .ok (if message.isEmpty then "Error" else "Error: " ++ message) := by
      rw [Thrown.toText]
      cases message.isEmpty <;> rfl
    refine ⟨⟨false, .text (if message.isEmpty then "Error" else "Error: " ++ message), p.messages⟩, ?_, ?_, rfl,
      rfl⟩
    · show (conclude c p (.error (.error .plain message))).outcome = _
      simp only [conclude, hreason, hlog, htext]
    · exact iff_of_false Bool.false_ne_true fun ⟨d, hd, _⟩ => by cases hd

/-- **The answer to a handler that sends** holds its messages in order, and says whether it succeeded. -/
theorem Registry.execute_sender (r : Registry) (w : Sender) {name context : Datum} {component : Component}
    {c : Context} {plugin : Text} (hcomponent : r.component? name = some component)
    (hexecute : component.config.property "execute" = .handler w.handler)
    (hcontext : Context.ofDatum context = .ok c) (hplugin : c.pluginName.toText = .ok plugin) :
    ∃ a, (r.execute name context).outcome = .ok a ∧ (a.success = true ↔ w.Succeeds) ∧ a.log = w.log ∧
      nonEmpty a.messages = w.messages := by
  obtain ⟨p, hsteps, hmessages⟩ := sends_steps w.calls c .start
  obtain ⟨a, ha, hsuccess, hlog, hms⟩ := conclude_sender w c hplugin p
  refine ⟨a, ?_, hsuccess, hlog, ?_⟩
  · have hrun : Progress.start.execute c (.handler w.handler) = (p, w.ending.outcome) := by
      show Progress.start.handle c w.handler = _
      rw [Sender.handler, Progress.handle, hsteps]
    rw [Registry.execute, hcomponent]
    simp only [hcontext, hexecute, hrun]
    exact ha
  · rw [hms, hmessages]
    rfl

end PluginKit.Registrar
