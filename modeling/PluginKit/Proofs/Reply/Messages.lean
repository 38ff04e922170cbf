import PluginKit.Proofs.Host
import PluginKit.Proofs.Value.Outcome
import PluginKit.Reply.Request

/-!
# Messages of a reply

Components and the parts of a reply of the host are sent in two different places, but by the same rule: the type of a
message decides which function of the host sends it (`Owner.Sent`). Whatever the host answers, each message is sent once
and in its turn (`sendEach_sent`, `sendParts_sent`), also around a reply of the host (`Writes.generateReply_sent`). The
answers count only for what is said at the end: whether all messages were accepted.
-/

namespace PluginKit.Reply

open List
open Host (run_bind_ok run_lift_ok)
open Value (str)

variable {o : Owner} {h : Host}

/-! ### One message -/

/-- A message, and the settings that go along with it for each function that may send it. -/
structure Message where
  type : Value
  content : Value
  settings : HostFunction → List (Text × Value)

def Component.message (c : Component) : Message where
  type := c.type
  content := c.content
  settings
    | .sendText => [("typing", c.setting "typing" (.bool false)), ("reply_to", c.setting "reply_to" (str ""))]
    | .sendCustom => [("display_message", c.setting "display_message" (str ""))]
    | _ => []

/-- The message of a part of a reply, which is a type and a content. -/
def Message.ofPart (part : Value × Value) : Message := ⟨part.1, part.2, fun _ => []⟩

/-- A call that sends a message to the chat of the owner. Texts, emojis and images have a function of their own; the
function for all other types is told the type. -/
inductive Owner.Sent (o : Owner) (m : Message) : HostCall → Prop where
  | text (h : m.type = str "text") : o.Sent m ⟨.sendText, [m.content, o.stream], m.settings .sendText⟩
  | emoji (h : m.type = str "emoji") : o.Sent m ⟨.sendEmoji, [m.content, o.stream], m.settings .sendEmoji⟩
  | image (h : m.type = str "image") : o.Sent m ⟨.sendImage, [m.content, o.stream], m.settings .sendImage⟩
  | custom (htext : m.type ≠ str "text") (hemoji : m.type ≠ str "emoji") (himage : m.type ≠ str "image") :
      o.Sent m ⟨.sendCustom, [m.type, m.content, o.stream], m.settings .sendCustom⟩

theorem Owner.Sent.channel {m : Message} {call : HostCall} (h : o.Sent m call) : call.function.channel = .send := by
  cases h <;> rfl

theorem ofType?_cases (type : Value) :
    type = str "text" ∧ HostFunction.ofType? type = some .sendText ∨
    type = str "image" ∧ HostFunction.ofType? type = some .sendImage ∨
    type = str "emoji" ∧ HostFunction.ofType? type = some .sendEmoji ∨
    (type ≠ str "text" ∧ type ≠ str "emoji" ∧ type ≠ str "image") ∧ HostFunction.ofType? type = none := by
  unfold HostFunction.ofType?
  by_cases htext : type.isStr "text" = true
  · exact .inl ⟨Value.isStr_iff.mp htext, if_pos htext⟩
  rw [if_neg htext]
  by_cases himage : type.isStr "image" = true
  · exact .inr (.inl ⟨Value.isStr_iff.mp himage, if_pos himage⟩)
  rw [if_neg himage]
  by_cases hemoji : type.isStr "emoji" = true
  · exact .inr (.inr (.inl ⟨Value.isStr_iff.mp hemoji, if_pos hemoji⟩))
  rw [if_neg hemoji]
  rw [Value.isStr_iff] at htext himage hemoji
  exact .inr (.inr (.inr ⟨⟨htext, hemoji, himage⟩, rfl⟩))

theorem Owner.sendComponent_eq (o : Owner) (c : Component) :
    ∃ call, o.Sent c.message call ∧ o.sendComponent c = Host.call call.function call.args call.named := by
  unfold Owner.sendComponent
  rcases ofType?_cases c.type with ⟨htype, hof⟩ | ⟨htype, hof⟩ | ⟨htype, hof⟩ | ⟨⟨htext, hemoji, himage⟩, hof⟩
  · rw [hof]
    exact ⟨_, .text htype, rfl⟩
  · rw [hof]
    exact ⟨_, .image htype, rfl⟩
  · rw [hof]
    exact ⟨_, .emoji htype, rfl⟩
  · rw [hof]
    exact ⟨_, .custom htext hemoji himage, rfl⟩

theorem Owner.run_sendPart {part : Value} {p : Value × Value} (o : Owner) (hpart : part.unpack 2 = .ok [p.1, p.2]) :
    ∃ call, o.Sent (.ofPart p) call ∧ ∀ h, (o.sendPart part).run.run h =
      (Host.call call.function call.args call.named >>= fun _ => pure ()).run.run h := by
  unfold Owner.sendPart
  simp only [hpart, run_bind_ok (run_lift_ok _ _)]
  rcases ofType?_cases p.1 with ⟨htype, hof⟩ | ⟨htype, hof⟩ | ⟨htype, hof⟩ | ⟨⟨htext, hemoji, himage⟩, hof⟩
  · rw [hof]
    exact ⟨_, .text htype, fun _ => rfl⟩
  · rw [hof]
    exact ⟨_, .image htype, fun _ => rfl⟩
  · rw [hof]
    exact ⟨_, .emoji htype, fun _ => rfl⟩
  · rw [hof]
    exact ⟨_, .custom htext hemoji himage, fun _ => rfl⟩

theorem Owner.Sent.run {m : Message} {call : HostCall} (hsent : o.Sent m call) (hs : h.Sends) :
    ∃ v h', (h.answers .send).head = .gives v ∧ h.Made [call] [] h' ∧
      (Host.call call.function call.args call.named).run.run h = (.ok v, h') := by
  obtain ⟨h', hmade, hrun⟩ := h.call_made call.function call.args call.named
  obtain ⟨v, hv⟩ := hs.head
  refine ⟨v, h', hv, hmade, ?_⟩
  rw [hrun, hsent.channel, hv]
  rfl

/-! ### Many messages -/

/-- Messages were sent with a host: one call was made for each of them, in their order, and nothing else was done. -/
def Owner.SentAll (o : Owner) (h : Host) (ms : List Message) (h' : Host) : Prop :=
  ∃ calls, h.Made calls [] h' ∧ List.Forall₂ o.Sent ms calls

theorem sentAll_nil (o : Owner) (h : Host) : o.SentAll h [] h := ⟨[], .refl h, .nil⟩

theorem Owner.Sent.sentAll {m : Message} {call : HostCall} {h' : Host} (hsent : o.Sent m call) (hmade : h.Made [call] [] h') :
    o.SentAll h [m] h' :=
  ⟨[call], hmade, .cons hsent .nil⟩

namespace Owner.SentAll

variable {ms ms' : List Message} {h₁ h₂ : Host}

theorem trans (hfirst : o.SentAll h ms h₁) (hrest : o.SentAll h₁ ms' h₂) : o.SentAll h (ms ++ ms') h₂ := by
  obtain ⟨calls, hmade, hcalls⟩ := hfirst
  obtain ⟨calls', hmade', hcalls'⟩ := hrest
  exact ⟨calls ++ calls', hmade.trans hmade', rel_append hcalls hcalls'⟩

theorem sends (hsent : o.SentAll h ms h₁) (hs : h.Sends) : h₁.Sends := by
  obtain ⟨calls, hmade, -⟩ := hsent
  exact hs.made hmade

theorem present (hsent : o.SentAll h ms h₁) : h₁.present = h.present := by
  obtain ⟨calls, hmade, -⟩ := hsent
  exact hmade.present

theorem length_calls (hsent : o.SentAll h ms h₁) : h₁.calls.length = h.calls.length + ms.length := by
  obtain ⟨calls, hmade, hcalls⟩ := hsent
  rw [hmade.calls, length_append, hcalls.length_eq]

theorem answers (hsent : o.SentAll h ms h₁) {c : Channel} (hc : c ≠ .send) : h₁.answers c = h.answers c := by
  obtain ⟨calls, hmade, hcalls⟩ := hsent
  have hchannel : ∀ call ∈ calls, call.function.channel = .send := by
    clear hmade
    induction hcalls with
    | nil => exact forall_mem_nil _
    | cons hcall _ ih => exact forall_mem_cons.mpr ⟨hcall.channel, ih⟩
  refine hmade.answers_eq fun call hcall => ?_
  rw [hchannel call hcall]
  exact Ne.symm hc

end Owner.SentAll

/-- **Components are sent in order**, each once. The result counts as present if and only if what came before does and all
messages are accepted. -/
theorem sendEach_sent (o : Owner) (items : List Component) (soFar : Value) (hs : h.Sends) :
    ∃ v h', (o.sendEach soFar items).run.run h = (.ok v, h') ∧ o.SentAll h (items.map Component.message) h' ∧
      (v.truthy = true ↔ soFar.truthy = true ∧ ∀ r ∈ (h.answers .send).take items.length, r.Accepts) := by
  induction items generalizing soFar h with
  | nil => exact ⟨soFar, h, rfl, sentAll_nil o h, (and_iff_left (forall_mem_nil _)).symm⟩
  | cons c items ih =>
    obtain ⟨call, hsent, hprogram⟩ := o.sendComponent_eq c
    obtain ⟨answer, h₁, hanswer, hmade, hrun⟩ := hsent.run hs
    obtain ⟨v, h₂, hrest, hall, hv⟩ := ih (if soFar.truthy then answer else soFar) (hs.made hmade)
    have hleft : h₁.answers .send = (h.answers .send).drop 1 := by
      rw [hmade.answers, countP_cons_of_pos (by simpa using hsent.channel)]
      rfl
    refine ⟨v, h₂, ?_, (hsent.sentAll hmade).trans hall, ?_⟩
    · rw [Owner.sendEach, hprogram, run_bind_ok hrun]
      exact hrest
    · have haccepts : (h.answers .send).head.Accepts ↔ answer.truthy = true := by
        rw [hanswer]
        constructor
        · rintro ⟨w, hw, htruthy⟩
          cases hw
          exact htruthy
        · exact fun htruthy => ⟨answer, rfl, htruthy⟩
      rw [hv, hleft, length_cons, Answers.take, forall_mem_cons, haccepts, ← and_assoc]
      refine and_congr_left fun _ => ?_
      by_cases hsoFar : soFar.truthy = true
      · rw [if_pos hsoFar]
        exact (and_iff_right hsoFar).symm
      · rw [if_neg hsoFar]
        exact iff_of_false hsoFar fun hboth => hsoFar hboth.1

/-- **The parts of a reply are sent in order**, each once. -/
theorem sendParts_sent (o : Owner) {items : List Value} {parts : List (Value × Value)}
    (hparts : List.Forall₂ (fun item p => item.unpack 2 = .ok [p.1, p.2]) items parts) (hs : h.Sends) :
    ∃ h', (o.sendParts items).run.run h = (.ok (), h') ∧ o.SentAll h (parts.map Message.ofPart) h' := by
  induction hparts generalizing h with
  | nil => exact ⟨h, rfl, sentAll_nil o h⟩
  | cons hpart _ ih =>
    obtain ⟨call, hsent, hprogram⟩ := o.run_sendPart hpart
    obtain ⟨answer, h₁, -, hmade, hrun⟩ := hsent.run hs
    obtain ⟨h₂, hrest, hall⟩ := ih (hs.made hmade)
    have hfirst := (hprogram h).trans (run_bind_ok hrun)
    refine ⟨h₂, ?_, (hsent.sentAll hmade).trans hall⟩
    rw [Owner.sendParts, run_bind_ok hfirst]
    exact hrest

theorem sendBatch_sent (o : Owner) (items : List Component) (hp : h.present = true) (hs : h.Sends) :
    ∃ v h', (o.sendBatch (.components items)).run.run h = (.ok v, h') ∧ o.SentAll h (items.map Component.message) h' ∧
      (v.truthy = true ↔ ∀ r ∈ (h.answers .send).take items.length, r.Accepts) := by
  obtain ⟨v, h', hrun, hall, hv⟩ := sendEach_sent o items (.bool true) hs
  refine ⟨v, h', ?_, hall, hv.trans (and_iff_right rfl)⟩
  rw [Owner.sendBatch, run_bind_ok (Host.run_require hp)]
  exact hrun

theorem run_inject (o : Owner) (items : List Component) (h : Host) :
    ((o.request .inject [.components items] []).run.run h).2 = ((o.sendBatch (.components items)).run.run h).2 := by
  have hargs : bindArguments Operation.inject.parameters [.components items] [] = .ok [.components items] := rfl
  rw [Owner.request, hargs, run_bind_ok (run_lift_ok _ h), Owner.run, Batch.items]
  cases hbatch : (o.sendBatch (.components items)).run.run h with | mk outcome h' =>
  cases outcome with
  | ok v => rw [run_bind_ok hbatch]; rfl
  | error e => rw [Host.run_bind_error hbatch]

/-! ### Replies -/

def Batch.ofOption : Option (List Component) → Batch
  | some items => .components items
  | none => .value .null

theorem sendOptional_sent (o : Owner) (given : Option (List Component)) (hp : h.present = true) (hs : h.Sends) :
    ∃ h', (o.sendOptional (.ofOption given)).run.run h = (.ok (), h') ∧
      o.SentAll h ((given.getD []).map Component.message) h' := by
  unfold Owner.sendOptional
  cases given with
  | none => exact ⟨h, rfl, sentAll_nil o h⟩
  | some items =>
    cases items with
    | nil => exact ⟨h, rfl, sentAll_nil o h⟩
    | cons c items =>
      obtain ⟨v, h', hrun, hall, -⟩ := sendBatch_sent o (c :: items) hp hs
      exact ⟨h', run_bind_ok hrun, hall⟩

/-- The reply that the host writes next: whether it succeeds, the parts of the reply if it does, and the prompt. -/
structure Writes (h : Host) (reply success set prompt : Value) (parts : List (Value × Value)) : Prop where
  answer : (h.answers .generateReply).head = .gives reply
  reply : reply.unpack 3 = .ok [success, set, prompt]
  parts : success.truthy = true → ∃ items, set.elements = .ok items ∧
    List.Forall₂ (fun item p => item.unpack 2 = .ok [p.1, p.2]) items parts

def Owner.asking (o : Owner) (extraInfo replyTo enableTool returnPrompt : Value) : HostCall :=
  ⟨.generateReply, [], [("chat_stream", o.chat), ("extra_info", extraInfo), ("reply_to", replyTo),
    ("enable_tool", enableTool), ("return_prompt", returnPrompt)]⟩

namespace Writes

variable {reply success set prompt : Value} {parts : List (Value × Value)}

/-- A reply of the host is sent if the host succeeded, and then what follows goes on. -/
theorem sent {g : Host} (hw : Writes g reply success set prompt parts) (o : Owner) (hs : h.Sends) :
    ∃ h', o.SentAll h (if success.truthy then parts.map Message.ofPart else []) h' ∧
      ∀ next : HostM (Value × Value), (if success.truthy then
        Host.lift set.elements >>= fun items => o.sendParts items >>= fun _ => next else next).run.run h =
          next.run.run h' := by
  by_cases hsuccess : success.truthy = true
  · simp only [if_pos hsuccess]
    obtain ⟨items, hset, hitems⟩ := hw.parts hsuccess
    obtain ⟨h', hrun, hall⟩ := sendParts_sent o hitems hs
    refine ⟨h', hall, fun next => ?_⟩
    rw [hset, run_bind_ok (run_lift_ok _ h), run_bind_ok hrun]
  · simp only [if_neg hsuccess]
    exact ⟨h, sentAll_nil o h, fun _ => rfl⟩

/-- **A reply of the host** is sent between the components before it and those after it. -/
theorem generateReply_sent (hw : Writes h reply success set prompt parts) (o : Owner)
    (extraInfo replyTo enableTool returnPrompt : Value) (before after : Option (List Component)) (hp : h.present = true)
    (hs : h.Sends) : ∃ h₁ h₂ h',
      (o.generateReply extraInfo replyTo (.ofOption before) (.ofOption after) enableTool returnPrompt).run.run h =
        (.ok (success, if returnPrompt.truthy then prompt else .null), h') ∧
      o.SentAll h ((before.getD []).map Component.message) h₁ ∧
      h₁.Made [o.asking extraInfo replyTo enableTool returnPrompt] [] h₂ ∧
      o.SentAll h₂ ((if success.truthy then parts.map Message.ofPart else []) ++
        (after.getD []).map Component.message) h' := by
  obtain ⟨h₁, hbefore, hall₁⟩ := sendOptional_sent o before hp hs
  obtain ⟨h₂, hmade, hasked⟩ := h₁.call_made .generateReply [] (o.asking extraInfo replyTo enableTool returnPrompt).named
  rw [HostFunction.channel, hall₁.answers (by decide), hw.answer] at hasked
  have hs₂ := (hall₁.sends hs).made hmade
  obtain ⟨h₃, hall₂, hwritten⟩ := hw.sent o hs₂
  have hp₃ : h₃.present = true := by rw [hall₂.present, hmade.present, hall₁.present, hp]
  obtain ⟨h₄, hafter, hall₃⟩ := sendOptional_sent o after hp₃ (hall₂.sends hs₂)
  refine ⟨h₁, h₂, h₄, ?_, hall₁, hmade, hall₂.trans hall₃⟩
  have hthree : Owner.three reply = .ok (success, set, prompt) := by
    rw [Owner.three, hw.reply]
    rfl
  unfold Owner.asking at hasked
  rw [Owner.generateReply, run_bind_ok (Host.run_require hp), run_bind_ok hbefore, run_bind_ok hasked, hthree,
    run_bind_ok (run_lift_ok _ _)]
  exact (hwritten _).trans (run_bind_ok hafter)

/-- **Everything is sent in order, once**, whatever the host answers: the components before a reply, the reply if the host
wrote one, and the components after it. The sending of components says whether all were accepted, and components that
are put in by name are sent in the same way. -/
theorem everything_sent (hw : Writes h reply success set prompt parts) (o : Owner)
    (extraInfo replyTo enableTool returnPrompt : Value) (before after : Option (List Component))
    (items : List Component) (hp : h.present = true) (hs : h.Sends) :
    (∃ h₁ h₂ h',
      (o.generateReply extraInfo replyTo (.ofOption before) (.ofOption after) enableTool returnPrompt).run.run h =
        (.ok (success, if returnPrompt.truthy then prompt else .null), h') ∧
      o.SentAll h ((before.getD []).map Component.message) h₁ ∧
      h₁.Made [o.asking extraInfo replyTo enableTool returnPrompt] [] h₂ ∧
      o.SentAll h₂ ((if success.truthy then parts.map Message.ofPart else []) ++
        (after.getD []).map Component.message) h') ∧
    (∃ v h', (o.sendBatch (.components items)).run.run h = (.ok v, h') ∧
      o.SentAll h (items.map Component.message) h' ∧
      (v.truthy = true ↔ ∀ r ∈ (h.answers .send).take items.length, r.Accepts)) ∧
    ∀ name ∈ (["inject_before", "inject_after"] : List Text), ∃ op, Operation.ofBuilderName? name = some op ∧
      ((o.request op [.components items] []).run.run h).2 = ((o.sendBatch (.components items)).run.run h).2 := by
  refine ⟨hw.generateReply_sent o extraInfo replyTo enableTool returnPrompt before after hp hs,
    sendBatch_sent o items hp hs, fun name hname => ⟨.inject, ?_, run_inject o items h⟩⟩
  fin_cases hname <;> rfl

end Writes

/-! ### A host that does not accept everything -/

/-- A host that does not accept the first message and writes a reply of two parts. -/
def pickyHost : Host where
  present := true
  answers c :=
    if c = .send then ⟨[.gives (.bool false)], .gives (.bool true)⟩
    else ⟨[], .gives (.tuple [.bool true, .list [.tuple [str "text", str "a"], .tuple [str "face", str "b"]], .null])⟩
  calls := []
  logs := []

theorem pickyHost_sends : pickyHost.Sends where
  stored _ hr := ⟨_, mem_singleton.mp hr⟩
  always := ⟨_, rfl⟩

theorem pickyHost_writes : Writes pickyHost
    (.tuple [.bool true, .list [.tuple [str "text", str "a"], .tuple [str "face", str "b"]], .null]) (.bool true)
    (.list [.tuple [str "text", str "a"], .tuple [str "face", str "b"]]) .null
    [(str "text", str "a"), (str "face", str "b")] where
  answer := rfl
  reply := rfl
  parts _ := ⟨_, rfl, .cons rfl (.cons rfl .nil)⟩

def chatOwner : Owner := ⟨.null, str "chat", .null, .null⟩

theorem pickyHost_everything_sent : pickyHost.present = true ∧ pickyHost.Sends ∧
    (∃ h', (chatOwner.generateReply (str "") (str "") (.ofOption (some [.emoji (str "e")]))
        (.ofOption (some [.image (str "i")])) (.bool false) (.bool false)).run.run pickyHost =
          (.ok (.bool true, .null), h') ∧ h'.calls.length = 5) ∧
    ∃ v h', (chatOwner.sendBatch (.components [.emoji (str "e"), .image (str "i")])).run.run pickyHost = (.ok v, h') ∧
      v.truthy = false ∧ h'.calls.length = 2 := by
  obtain ⟨⟨h₁, h₂, h', hrun, hbefore, hmade, hafter⟩, ⟨v, h₃, hrun₃, hall, hv⟩, -⟩ :=
    pickyHost_writes.everything_sent chatOwner (str "") (str "") (.bool false) (.bool false) (some [.emoji (str "e")])
      (some [.image (str "i")]) [.emoji (str "e"), .image (str "i")] rfl pickyHost_sends
  refine ⟨rfl, pickyHost_sends, ⟨h', hrun, ?_⟩, v, h₃, hrun₃, ?_, hall.length_calls⟩
  · rw [hafter.length_calls, hmade.calls, List.length_append, hbefore.length_calls]
    rfl
  · rw [Bool.eq_false_iff, Ne, hv]
    intro haccepted
    obtain ⟨w, hw, htruthy⟩ := haccepted (.gives (.bool false)) List.mem_cons_self
    cases hw
    cases htruthy

end PluginKit.Reply
