import PluginKit.Proofs.Registrar.Sends

/-!
# Failures of handlers

A handler sends any data, one after another, and then returns any datum or throws. A datum that has no text
cannot be sent, so that sending it ends the handler early. The execution of a component is answered unless the
failure itself cannot be described: null and undefined have no message, some objects have no text, and the name
of the plugin, which starts every line of the log, may have none either (`Registry.execute_answered_iff`).
-/

namespace PluginKit.Registrar

/-! ### What is sent -/

structure Sending where
  method : SendMethod
  argument : Datum

namespace Sending

def step (s : Sending) : Step := .call s.method.name [s.argument]

def present (s : Sending) : Bool :=
  match s.method.kind with
  | .text => s.argument.given
  | _ => s.argument.truthy

/-- The messages of the call, or what is thrown if the datum has no text. -/
def messages (s : Sending) : Attempt (List Message) :=
  if s.present then s.argument.toText.map fun content => [⟨s.method.kind, content⟩] else .ok []

end Sending

/-- What a handler does: it sends, and then it ends. -/
structure Course where
  sendings : List Sending
  ending : Ending

namespace Course

/-- The messages sent before the end, and the end. A sending that throws is the end. -/
def run : List Sending → Ending → List Message × Attempt Datum
  | [], ending => ([], ending.outcome)
  | s :: rest, ending =>
    match s.messages with
    | .ok ms => (ms ++ (run rest ending).1, (run rest ending).2)
    | .error t => ([], .error t)

def messages (w : Course) : List Message := (run w.sendings w.ending).1

def outcome (w : Course) : Attempt Datum := (run w.sendings w.ending).2

def reply (answer : Text) : Course :=
  ⟨[⟨.sendText, .text answer⟩], .returns (.object [("success", .bool true)])⟩

end Course

inductive Handler.Takes : Handler → Course → Prop where
  | reply (answer : Text) : Takes (.reply answer) (.reply answer)
  | steps (w : Course) : Takes (.steps (w.sendings.map Sending.step) w.ending) w

theorem Sending.step_run (s : Sending) (p : Progress) (c : Context) :
    ∃ p', p.step c s.step = (p', s.messages.map fun _ => ()) ∧
      p'.messages = p.messages ++ s.messages.toOption.getD [] := by
  have habsent (h : ¬ s.present = true) : p.call c s.method.name [s.argument] = (p, .ok .undefined) := by
    obtain ⟨method, argument⟩ := s
    cases method <;> exact if_neg h
  have hsent (h : s.present = true) {content : Text} (htext : s.argument.toText = .ok content) :
      p.call c s.method.name [s.argument] = (p.add s.method.kind content, .ok .undefined) := by
    obtain ⟨method, argument⟩ := s
    cases method <;> exact (if_pos h).trans (by rw [List.getElem?_cons_zero, Option.getD_some, htext]; rfl)
  have hthrown (h : s.present = true) {t : Thrown} (htext : s.argument.toText = .error t) :
      p.call c s.method.name [s.argument] = (p, .error t) := by
    obtain ⟨method, argument⟩ := s
    cases method <;> exact (if_pos h).trans (by rw [List.getElem?_cons_zero, Option.getD_some, htext])
  rw [Sending.step, Progress.step, Sending.messages]
  by_cases hpresent : s.present = true
  · rw [if_pos hpresent]
    cases htext : s.argument.toText with
    | ok content =>
      rw [hsent hpresent htext]
      exact ⟨_, rfl, rfl⟩
    | error t =>
      rw [hthrown hpresent htext]
      exact ⟨_, rfl, (List.append_nil _).symm⟩
  · rw [if_neg hpresent, habsent hpresent]
    exact ⟨_, rfl, (List.append_nil _).symm⟩

theorem Course.steps_run (sendings : List Sending) (ending : Ending) (c : Context) : ∀ p : Progress,
    ∃ p', p.handle c (.steps (sendings.map Sending.step) ending) = (p', (run sendings ending).2) ∧
      p'.messages = p.messages ++ (run sendings ending).1 := by
  induction sendings with
  | nil => exact fun p => ⟨p, rfl, (List.append_nil _).symm⟩
  | cons s rest ih =>
    intro p
    obtain ⟨p₁, hstep, hadded⟩ := s.step_run p c
    rw [List.map_cons, Progress.handle, Progress.steps, hstep, run]
    cases hmessages : s.messages with
    | error t =>
      rw [hmessages] at hadded
      exact ⟨p₁, rfl, hadded⟩
    | ok ms =>
      obtain ⟨p₂, hrest, hsent⟩ := ih p₁
      rw [hmessages] at hadded
      refine ⟨p₂, hrest, ?_⟩
      rw [hsent, hadded, List.append_assoc]
      rfl

/-- A handler ends as its course does, having sent the messages of the course. -/
theorem Handler.Takes.handle {h : Handler} {w : Course} (htakes : h.Takes w) (c : Context) :
    ∃ p, Progress.start.handle c h = (p, w.outcome) ∧ p.messages = w.messages := by
  cases htakes with
  | reply answer => exact ⟨_, rfl, rfl⟩
  | steps => exact Course.steps_run w.sendings w.ending c .start

/-! ### What is answered -/

def Thrown.given : Thrown → Bool
  | .error _ _ => true
  | .datum d => d.given

def Thrown.message : Thrown → Datum
  | .error _ message => .text message
  | .datum d => d.property "message"

/-- What was thrown can be described: it can be asked for its message, which has a text if it counts as
present, and it has a text itself. -/
structure Thrown.Describable (t : Thrown) : Prop where
  given : t.given = true
  message : t.message.truthy = true → ∃ s, t.message.toText = .ok s
  text : ∃ s, t.toText = .ok s

@[simp] theorem Thrown.describable_error (kind : ErrorKind) (message : Text) :
    (Thrown.error kind message).Describable :=
  ⟨rfl, fun _ => ⟨message, rfl⟩, ⟨_, rfl⟩⟩

/-- The answer reports what a handler sent and how it ended. -/
structure Answer.Reports (a : Answer) (messages : List Message) (ended : Attempt Datum) : Prop where
  messages : a.messages = messages
  success : a.success = true ↔ ∃ d, ended = .ok d ∧ d.property "success" ≠ .bool false
  log_returned : ∀ d, ended = .ok d → a.log = (d.property "log").orElse (.text "")
  log_thrown : ∀ t, ended = .error t → ∃ s, t.toText = .ok s ∧ a.log = .text s

theorem Thrown.reason_eq {t : Thrown} (hgiven : t.given = true) :
    t.reason = if t.message.truthy then t.message.toText else t.toText := by
  cases t with
  | error kind message => cases message <;> rfl
  | datum d => cases d <;> first | rfl | cases hgiven

theorem Thrown.reason_not_given {t : Thrown} (hgiven : t.given = false) : ∃ e, t.reason = .error e := by
  cases t with
  | error kind message => cases hgiven
  | datum d => cases d <;> first | exact ⟨_, rfl⟩ | cases hgiven

/-- What was thrown can be described just if there is something to log about it and it has a text. -/
theorem Thrown.describable_iff (t : Thrown) :
    t.Describable ↔ (∃ reason, t.reason = .ok reason) ∧ ∃ s, t.toText = .ok s := by
  constructor
  · rintro ⟨hgiven, hmessage, htext⟩
    refine ⟨?_, htext⟩
    rw [reason_eq hgiven]
    split
    · next htruthy => exact hmessage htruthy
    · exact htext
  · rintro ⟨⟨reason, hreason⟩, htext⟩
    cases hgiven : t.given with
    | false =>
      obtain ⟨e, he⟩ := reason_not_given hgiven
      rw [he] at hreason
      cases hreason
    | true =>
      rw [reason_eq hgiven] at hreason
      refine ⟨hgiven, fun htruthy => ?_, htext⟩
      rw [if_pos htruthy] at hreason
      exact ⟨reason, hreason⟩

theorem Progress.writeLog_error (p : Progress) {c : Context} {e : Thrown}
    (hname : c.pluginName.toText = .error e) (mark : Text) (args : List Datum) :
    p.writeLog c mark args = (p, .error e) := by
  simp only [Progress.writeLog, hname]
  rfl

/-- The end of a handler is answered unless it threw and the failure cannot be described. -/
theorem conclude_answered_iff (c : Context) (p : Progress) (ended : Attempt Datum) :
    (∃ a, (conclude c p ended).outcome = .ok a) ↔
      ∀ t, ended = .error t → t.Describable ∧ ∃ name, c.pluginName.toText = .ok name := by
  cases ended with
  | ok d => exact iff_of_true ⟨_, rfl⟩ nofun
  | error t =>
    have hended : (∀ t', (.error t : Attempt Datum) = .error t' →
        t'.Describable ∧ ∃ name, c.pluginName.toText = .ok name) ↔
        t.Describable ∧ ∃ name, c.pluginName.toText = .ok name :=
      ⟨fun h => h t rfl, fun h t' ht => by cases ht; exact h⟩
    rw [hended, t.describable_iff, conclude]
    cases hreason : t.reason with
    | error e => simp
    | ok reason =>
      cases hname : c.pluginName.toText with
      | error e => simp [p.writeLog_error hname]
      | ok name => cases htext : t.toText <;> simp [p.writeLog_text hname]

theorem conclude_reports {c : Context} {p : Progress} {ended : Attempt Datum} {a : Answer}
    (h : (conclude c p ended).outcome = .ok a) : a.Reports p.messages ended := by
  cases ended with
  | ok d =>
    cases h
    refine ⟨rfl, ?_, fun d' hd => by cases hd; rfl, nofun⟩
    rw [Bool.not_eq_true', saysFailed_eq_false]
    constructor
    · exact fun hsuccess => ⟨d, rfl, hsuccess⟩
    · rintro ⟨d', hd, hsuccess⟩
      cases hd
      exact hsuccess
  | error t =>
    rw [conclude] at h
    cases hreason : t.reason with
    | error e => simp [hreason] at h
    | ok reason =>
      cases hname : c.pluginName.toText with
      | error e => simp [hreason, p.writeLog_error hname] at h
      | ok name =>
        cases htext : t.toText with
        | error e => simp [hreason, p.writeLog_text hname, htext] at h
        | ok s =>
          simp only [hreason, p.writeLog_text hname, htext, Except.ok.injEq] at h
          subst h
          refine ⟨rfl, by simp, fun d hd => ?_, fun t' ht => ?_⟩
          · cases hd
          · cases ht
            exact ⟨s, htext, rfl⟩

/-! ### Executions -/

theorem Context.ofDatum_given {context : Datum} (hgiven : context.given = true) :
    ∃ c, Context.ofDatum context = .ok c ∧ c.pluginName = context.property "plugin_name" := by
  cases context <;> first | exact ⟨_, rfl, rfl⟩ | cases hgiven

theorem Context.ofDatum_not_given {context : Datum} (hgiven : context.given = false) :
    ∃ e, Context.ofDatum context = .error e := by
  cases context <;> first | exact ⟨_, rfl⟩ | cases hgiven

/-- **The execution of a component is answered** just if there is a context and its handler, if it throws, throws
what can be described, for a plugin whose name has a text. An answer reports what was sent, in order, and the end. -/
theorem Registry.execute_answered_iff (r : Registry) {name : Datum} {component : Component} {h : Handler} {w : Course}
    (hcomponent : r.component? name = some component)
    (hexecute : component.config.property "execute" = .handler h) (htakes : h.Takes w) (context : Datum) :
    ((∃ a, (r.execute name context).outcome = .ok a) ↔
      context.given = true ∧ ∀ t, w.outcome = .error t →
        t.Describable ∧ ∃ plugin, (context.property "plugin_name").toText = .ok plugin) ∧
      ∀ a, (r.execute name context).outcome = .ok a → a.Reports w.messages w.outcome := by
  cases hgiven : context.given with
  | false =>
    obtain ⟨e, hcontext⟩ := Context.ofDatum_not_given hgiven
    simp [Registry.execute, hcomponent, hcontext]
  | true =>
    obtain ⟨c, hcontext, hplugin⟩ := Context.ofDatum_given hgiven
    obtain ⟨p, hrun, hsent⟩ := htakes.handle c
    have hexecution : r.execute name context = conclude c p w.outcome := by
      have hrun' : Progress.start.execute c (.handler h) = (p, w.outcome) := hrun
      rw [Registry.execute, hcomponent]
      simp only [hcontext, hexecute, hrun']
    rw [hexecution, ← hsent, ← hplugin, conclude_answered_iff]
    exact ⟨by simp only [true_and], fun a => conclude_reports⟩

def greeter (h : Handler) : Component :=
  ⟨.text "greet", .object [("name", .text "greet"), ("execute", .handler h)]⟩

/-- Sends a text, no emoji and an image, and then throws an error. -/
def brokenOff : Course :=
  ⟨[⟨.send, .text "hi"⟩, ⟨.sendEmoji, .null⟩, ⟨.sendImage, .text "aGk="⟩], .fails "lost"⟩

theorem brokenOff_answered :
    ∃ a, (Registry.execute ⟨[greeter (.steps (brokenOff.sendings.map Sending.step) brokenOff.ending)], []⟩
        (.text "greet") (.object [("plugin_name", .text "p")])).outcome = .ok a ∧
      a.Reports [⟨.text, "hi"⟩, ⟨.image, "aGk="⟩] (.error (.error .plain "lost")) := by
  let h : Handler := .steps (brokenOff.sendings.map Sending.step) brokenOff.ending
  have hcomponent : Registry.component? ⟨[greeter h], []⟩ (.text "greet") = some (greeter h) := rfl
  obtain ⟨hanswered, hreports⟩ := Registry.execute_answered_iff ⟨[greeter h], []⟩ hcomponent rfl
    (.steps brokenOff) (.object [("plugin_name", .text "p")])
  obtain ⟨a, ha⟩ := hanswered.2 ⟨rfl, fun t ht => by cases ht; exact ⟨Thrown.describable_error _ _, "p", rfl⟩⟩
  exact ⟨a, ha, hreports a ha⟩

/-- A handler that throws null is not answered, and what it sent before is lost. -/
theorem null_thrown_unanswered :
    (Registry.execute ⟨[greeter (.steps [.call "send" [.text "hi"]] (.throws .null))], []⟩
        (.text "greet") (.object [("plugin_name", .text "p")])).outcome
      = .error (.typeError "Cannot read properties of null (reading 'message')") :=
  rfl

end PluginKit.Registrar
