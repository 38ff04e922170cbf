import Mathlib.Tactic
import PluginKit.Host

/-!
# What is done with the host

`Host.Made` says everything about the host after a number of calls: the calls and the log grew, and each call has used up
one answer of its channel, the next one, which is what it gave (`call_made`).

`Host.Did` says less: it leaves open how many answers are left on the channel for messages. As long as that channel gives
answers (`Host.Sends`), a call on it does nothing but that (`call_did`).
-/

namespace PluginKit

open List

variable {α β : Type} {h h₁ h₂ h' : Host} {calls₁ calls₂ calls : List HostCall} {logs₁ logs₂ logs : List LogEntry}
  {x : HostM α} {f : α → HostM β}

/-! ### Answers -/

namespace Answers

def head (a : Answers) : HostReply := a.stored.headD a.always

def drop (a : Answers) (n : Nat) : Answers := ⟨a.stored.drop n, a.always⟩

def take : Answers → Nat → List HostReply
  | _, 0 => []
  | a, n + 1 => a.head :: take (a.drop 1) n

theorem drop_drop (a : Answers) (m n : Nat) : (a.drop m).drop n = a.drop (m + n) := by
  rw [drop, drop, drop, List.drop_drop]

end Answers

def HostReply.outcome : HostReply → Outcome Value
  | gives v => .ok v
  | fails reason => .error (.host reason)

/-- The answer gives a value that counts as present. -/
def HostReply.Accepts (r : HostReply) : Prop := ∃ v, r = .gives v ∧ v.truthy = true

namespace Host

/-- The channel for messages gives answers and no failures. -/
structure Sends (h : Host) : Prop where
  stored : ∀ r ∈ (h.answers .send).stored, ∃ v, r = .gives v
  always : ∃ v, (h.answers .send).always = .gives v

/-- What was done with a host: the calls that were made, each of which used up an answer, and what was logged. -/
structure Made (h : Host) (calls : List HostCall) (logs : List LogEntry) (h' : Host) : Prop where
  answers : ∀ c, h'.answers c = (h.answers c).drop (calls.countP fun call => call.function.channel = c)
  calls : h'.calls = h.calls ++ calls
  logs : h'.logs = h.logs ++ logs
  present : h'.present = h.present

theorem Made.refl (h : Host) : h.Made [] [] h :=
  ⟨fun _ => rfl, (append_nil _).symm, (append_nil _).symm, rfl⟩

theorem Made.trans (m₁ : h.Made calls₁ logs₁ h₁) (m₂ : h₁.Made calls₂ logs₂ h₂) :
    h.Made (calls₁ ++ calls₂) (logs₁ ++ logs₂) h₂ where
  answers c := by rw [m₂.answers, m₁.answers, Answers.drop_drop, countP_append]
  calls := by rw [m₂.calls, m₁.calls, append_assoc]
  logs := by rw [m₂.logs, m₁.logs, append_assoc]
  present := m₂.present.trans m₁.present

theorem Made.logged (h : Host) (logs : List LogEntry) : h.Made [] logs { h with logs := h.logs ++ logs } :=
  ⟨fun _ => rfl, (append_nil _).symm, rfl, rfl⟩

/-- A channel on which no call was made has all of its answers left. -/
theorem Made.answers_eq (m : h.Made calls logs h')
    {c : Channel} (hc : ∀ call ∈ calls, call.function.channel ≠ c) : h'.answers c = h.answers c := by
  have hnone : (calls.countP fun call => call.function.channel = c) = 0 := by
    rw [countP_eq_zero]
    exact fun call hcall => by simpa using hc call hcall
  rw [m.answers, hnone]
  rfl

theorem Sends.head (hs : h.Sends) : ∃ v, (h.answers .send).head = .gives v := by
  unfold Answers.head
  cases hstored : (h.answers .send).stored with
  | nil => exact hs.always
  | cons r rest => exact hs.stored r (by rw [hstored]; exact mem_cons_self)

theorem Sends.made (hs : h.Sends) (m : h.Made calls logs h') : h'.Sends := by
  have hanswers := m.answers .send
  refine ⟨fun r hr => hs.stored r ?_, ?_⟩
  · rw [hanswers] at hr
    exact mem_of_mem_drop hr
  · rw [hanswers]
    exact hs.always

/-- What was done with a host, apart from using up answers on the channel for messages. -/
structure Did (h : Host) (calls : List HostCall) (logs : List LogEntry) (h' : Host) : Prop where
  calls : h'.calls = h.calls ++ calls
  logs : h'.logs = h.logs ++ logs
  present : h'.present = h.present
  others : ∀ c, c ≠ .send → h'.answers c = h.answers c

theorem Did.refl (h : Host) : h.Did [] [] h :=
  ⟨(append_nil _).symm, (append_nil _).symm, rfl, fun _ _ => rfl⟩

theorem Did.trans (d₁ : h.Did calls₁ logs₁ h₁) (d₂ : h₁.Did calls₂ logs₂ h₂) :
    h.Did (calls₁ ++ calls₂) (logs₁ ++ logs₂) h₂ where
  calls := by rw [d₂.calls, d₁.calls, append_assoc]
  logs := by rw [d₂.logs, d₁.logs, append_assoc]
  present := d₂.present.trans d₁.present
  others := fun c hc => (d₂.others c hc).trans (d₁.others c hc)

theorem Did.logged (h : Host) (logs : List LogEntry) : h.Did [] logs { h with logs := h.logs ++ logs } :=
  ⟨(append_nil _).symm, rfl, rfl, fun _ _ => rfl⟩

theorem Sends.logged (hs : h.Sends) (logs : List LogEntry) : Sends { h with logs := h.logs ++ logs } :=
  ⟨hs.stored, hs.always⟩

/-! ### Steps -/

theorem run_bind_ok {a : α} (hx : x.run.run h = (.ok a, h')) : (x >>= f).run.run h = (f a).run.run h' := by
  have hx' : x h = (.ok a, h') := hx
  show StateT.bind x (ExceptT.bindCont f) h = f a h'
  unfold StateT.bind
  rw [hx']
  rfl

theorem run_bind_error {e : Fault} (hx : x.run.run h = (.error e, h')) : (x >>= f).run.run h = (.error e, h') := by
  have hx' : x h = (.error e, h') := hx
  show StateT.bind x (ExceptT.bindCont f) h = _
  unfold StateT.bind
  rw [hx']
  rfl

theorem run_lift_ok (a : α) (h : Host) : (lift (.ok a)).run.run h = (.ok a, h) := rfl

theorem run_require (hp : h.present = true) : require.run.run h = (.ok (), h) := by
  have hget : (get : HostM Host).run.run h = (.ok h, h) := rfl
  rw [require, run_bind_ok hget, if_pos hp]
  rfl

theorem run_log (h : Host) (logs : List LogEntry) :
    (modify (fun h => { h with logs := h.logs ++ logs }) : HostM Unit).run.run h
      = (.ok (), { h with logs := h.logs ++ logs }) := rfl

theorem run_call (h : Host) (function : HostFunction) (args : List Value) (named : List (Text × Value)) :
    (call function args named).run.run h =
      match h.answer ⟨function, args, named⟩ with
      | (.gives v, h') => (.ok v, h')
      | (.fails reason, h') => (.error (.host reason), h') := by
  have hget : (get : HostM Host).run.run h = (.ok h, h) := rfl
  rw [call, run_bind_ok hget]
  obtain ⟨reply, h'⟩ := h.answer ⟨function, args, named⟩
  cases reply <;> rfl

theorem answer_made (h : Host) (call : HostCall) :
    ∃ h', h.Made [call] [] h' ∧ h.answer call = ((h.answers call.function.channel).head, h') := by
  unfold answer Answers.head
  dsimp only
  split
  · next hstored =>
    rw [hstored]
    refine ⟨_, ?_, rfl⟩
    refine ⟨fun c => ?_, rfl, (append_nil _).symm, rfl⟩
    by_cases hc : call.function.channel = c
    · subst hc
      rw [Answers.drop, hstored, drop_nil, ← hstored]
    · rw [countP_cons_of_neg (by simpa using hc)]
      rfl
  · next r rest hstored =>
    rw [hstored]
    refine ⟨_, ?_, rfl⟩
    refine ⟨fun c => ?_, rfl, (append_nil _).symm, rfl⟩
    by_cases hc : c = call.function.channel
    · subst hc
      rw [countP_cons_of_pos (by simp), Answers.drop, hstored]
      exact if_pos rfl
    · rw [countP_cons_of_neg (by simpa using Ne.symm hc)]
      exact if_neg hc

/-- **A call** is noted, and gives the next answer of its channel. -/
theorem call_made (h : Host) (function : HostFunction) (args : List Value) (named : List (Text × Value)) :
    ∃ h', h.Made [⟨function, args, named⟩] [] h' ∧
      (call function args named).run.run h = ((h.answers function.channel).head.outcome, h') := by
  obtain ⟨h', hmade, hreply⟩ := h.answer_made ⟨function, args, named⟩
  refine ⟨h', hmade, ?_⟩
  rw [run_call, hreply]
  cases (h.answers function.channel).head <;> rfl

/-- **A call on the channel for messages** is noted, and nothing else happens. -/
theorem call_did (hs : h.Sends) {function : HostFunction} (hf : function.channel = .send)
    (args : List Value) (named : List (Text × Value)) :
    ∃ v h', (call function args named).run.run h = (.ok v, h') ∧ h.Did [⟨function, args, named⟩] [] h' ∧
      h'.Sends := by
  obtain ⟨h', hmade, hrun⟩ := h.call_made function args named
  obtain ⟨v, hv⟩ := hs.head
  refine ⟨v, h', ?_, ⟨hmade.calls, hmade.logs, hmade.present, fun c hc => hmade.answers_eq ?_⟩, hs.made hmade⟩
  · rw [hrun, hf, hv]
    rfl
  · intro call hcall
    rw [mem_singleton.mp hcall]
    exact fun heq => hc (heq.symm.trans hf)

end Host

end PluginKit
