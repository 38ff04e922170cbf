import PluginKit.Proofs.Script.Defined
import PluginKit.Proofs.Value.Entries

/-!
# Responses of components

A component can declare a reply, code, a prompt and a request, and the first of these that is there is its response
(`Declares`). A reply that is meant to show a fetched page is therefore taken for the whole response: a component with a
request keeps it exactly if it has no reply (`page_kept_iff`).
-/

namespace PluginKit.Script

open Value (str field? bind_eq_ok)

variable {entries : List (Value × Value)} {r : Response} {component request shown v : Value} {text source : Text}
  {index : Nat}

/-! ### What is declared -/

/-- The response that the entries of a component declare. -/
inductive Declares (entries : List (Value × Value)) : Response → Prop where
  | reply {v : Value} {text : Text} (hreply : field? "reply" entries = some v) (shown : v.display = .ok text) :
    Declares entries (.reply text)
  | python {v : Value} {code : Text} (hreply : field? "reply" entries = none)
    (hpython : field? "python" entries = some v) (shown : v.display = .ok code) : Declares entries (.python code)
  | prompt {v : Value} {text : Text} (hreply : field? "reply" entries = none)
    (hpython : field? "python" entries = none) (hprompt : field? "llm_prompt" entries = some v)
    (shown : v.display = .ok text) : Declares entries (.prompt text defaultPromptReply)
  | page {request : Value} (hreply : field? "reply" entries = none) (hpython : field? "python" entries = none)
    (hprompt : field? "llm_prompt" entries = none) (hget : field? "http_get" entries = some request) :
    Declares entries (.httpGet request defaultHttpReply)

theorem declares_of_ofEntries? (h : Response.ofEntries? entries = .ok (some r)) : Declares entries r := by
  unfold Response.ofEntries? at h
  split at h
  · next v hreply =>
    obtain ⟨text, htext, h⟩ := bind_eq_ok.mp h
    cases h
    exact .reply hreply htext
  · next hreply =>
    split at h
    · next v hpython =>
      obtain ⟨code, hcode, h⟩ := bind_eq_ok.mp h
      cases h
      exact .python hreply hpython hcode
    · next hpython =>
      split at h
      · next v hprompt =>
        obtain ⟨text, htext, h⟩ := bind_eq_ok.mp h
        rw [hreply] at h
        cases h
        exact .prompt hreply hpython hprompt htext
      · next hprompt =>
        obtain ⟨request, hget, rfl⟩ := Option.map_eq_some_iff.mp (Except.ok.inj h)
        rw [hreply]
        exact .page hreply hpython hprompt hget

/-! ### Components as values -/

def responseKeys : List String := ["type", "reply", "python", "llm_prompt", "http_get"]

/-- The value of a component has what its response adds, and nothing else under these keys. -/
structure Shows (component : Value) (r : Response) : Prop where
  item : ∀ key ∈ responseKeys, ∀ v, r.fields.lookup key = some v → component.item key = .ok v
  holds : ∀ key ∈ responseKeys, component.holds key = .ok (r.fields.lookup key).isSome

theorem shows_record {base : List (String × Value)} (hbase : ∀ key ∈ responseKeys, base.lookup key = none)
    (r : Response) : Shows (.record (base ++ r.fields)) r := by
  have hlookup : ∀ key ∈ responseKeys, (base ++ r.fields).lookup key = r.fields.lookup key := by
    intro key hkey
    rw [List.lookup_append, hbase key hkey, Option.none_or]
  refine ⟨fun key hkey v hv => Value.item_record ?_, fun key hkey => ?_⟩
  · rw [hlookup key hkey, hv]
  · rw [Value.holds_record, hlookup key hkey]

theorem shows_command (c : Command) : Shows c.toValue c.response := by
  refine shows_record (fun key hkey => ?_) _
  simp only [responseKeys, List.mem_cons, List.not_mem_nil, or_false] at hkey
  rcases hkey with rfl | rfl | rfl | rfl | rfl <;> rfl

theorem shows_action (a : Action) : Shows a.toValue a.response := by
  refine shows_record (fun key hkey => ?_) _
  simp only [responseKeys, List.mem_cons, List.not_mem_nil, or_false] at hkey
  rcases hkey with rfl | rfl | rfl | rfl | rfl <;> rfl

/-! ### Requests -/

/-- A component that fetches a page. -/
structure IsPage (component request shown : Value) : Prop where
  type : component.item "type" = .ok (str "http_get")
  request : component.item "http_get" = .ok request
  shown : component.item "reply" = .ok shown

/-- A component that sends a text and fetches nothing. -/
structure IsBareReply (component : Value) (text : Text) : Prop where
  type : component.item "type" = .ok (str "reply")
  text : component.item "reply" = .ok (str text)
  request : component.holds "http_get" = .ok false

/-- The component of an item that has a request, and neither code nor a prompt, keeps the request if and only if the
item has no reply; else the reply is all that is left. -/
def PageKeptIff (item component : Value) : Prop :=
  ∃ entries, item.view = .dict entries ∧ ∀ request, field? "http_get" entries = some request →
    field? "python" entries = none → field? "llm_prompt" entries = none →
      (IsPage component request ((field? "reply" entries).getD defaultHttpReply) ↔ field? "reply" entries = none) ∧
        ∀ reply, field? "reply" entries = some reply → ∃ text, reply.display = .ok text ∧ IsBareReply component text

theorem isPage_of_shows (h : Shows component (.httpGet request shown)) : IsPage component request shown :=
  ⟨h.item "type" (by decide) _ rfl, h.item "http_get" (by decide) _ rfl, h.item "reply" (by decide) _ rfl⟩

theorem isBareReply_of_shows (h : Shows component (.reply text)) : IsBareReply component text :=
  ⟨h.item "type" (by decide) _ rfl, h.item "reply" (by decide) _ rfl, h.holds "http_get" (by decide)⟩

theorem IsBareReply.not_isPage (h : IsBareReply component text) : ¬ IsPage component request shown := by
  intro hpage
  have htype := h.type.symm.trans hpage.type
  exact absurd (Value.str.inj (Except.ok.inj htype)) (by decide)

theorem pageKeptIff_of_declares {item : Value}
    (hitem : item.view = .dict entries) (hdeclares : Declares entries r) (hshows : Shows component r) :
    PageKeptIff item component := by
  refine ⟨entries, hitem, fun request hget hpython hprompt => ?_⟩
  cases hdeclares with
  | @reply v text hreply shown =>
    have hbare := isBareReply_of_shows hshows
    refine ⟨iff_of_false hbare.not_isPage (by simp [hreply]), fun reply h => ?_⟩
    cases hreply.symm.trans h
    exact ⟨text, shown, hbare⟩
  -- the item has neither code nor a prompt
  | python _ h => cases hpython.symm.trans h
  | prompt _ _ h => cases hprompt.symm.trans h
  | @page request' hreply _ _ hget' =>
    cases hget.symm.trans hget'
    rw [hreply]
    exact ⟨iff_of_true (isPage_of_shows hshows) rfl, nofun⟩

theorem pageKeptIff_command {c : Command} (h : Command.ofValue source index v = .ok c) : PageKeptIff v c.toValue := by
  obtain ⟨entries, hv, -, -, hresponse, -⟩ := command_ofValue_ok h
  exact pageKeptIff_of_declares hv (declares_of_ofEntries? hresponse) (shows_command c)

theorem pageKeptIff_action {a : Action} (h : Action.ofValue source index v = .ok a) : PageKeptIff v a.toValue := by
  obtain ⟨entries, _, hv, -, -, -, hresponse, -⟩ := action_ofValue_ok h
  exact pageKeptIff_of_declares hv (declares_of_ofEntries? hresponse) (shows_action a)

/-- **Requests in accepted scripts.** Each command and each action of an accepted script that has a request, and neither
code nor a prompt, keeps it if and only if it has no reply. -/
theorem page_kept_iff {source : Text} {v data : Value} (h : normalize source v = .ok data) :
    ∃ entries commands actions madeCommands madeActions, v.view = .dict entries ∧
      IsSection .commands entries commands ∧ data.item "commands" = .ok (.list madeCommands) ∧
      List.Forall₂ PageKeptIff commands madeCommands ∧
      IsSection .actions entries actions ∧ data.item "actions" = .ok (.list madeActions) ∧
      List.Forall₂ PageKeptIff actions madeActions := by
  unfold normalize at h
  cases hd : Definition.ofValue source v with
  | error f =>
    rw [hd] at h
    cases h
  | ok d =>
    rw [hd] at h
    cases h
    obtain ⟨entries, _, commands, actions, hv, -, -, hcommands, hmadeCommands, hactions, hmadeActions, -⟩ := ofValue_ok hd
    refine ⟨entries, commands, actions, d.commands.map Command.toValue, d.actions.map Action.toValue, hv, hcommands,
      Value.item_record rfl, ?_, hactions, Value.item_record rfl, ?_⟩
    · refine List.forall₂_map_right_iff.mpr (hmadeCommands.imp fun item c hread => ?_)
      obtain ⟨index, hread⟩ := hread
      exact pageKeptIff_command hread
    · refine List.forall₂_map_right_iff.mpr (hmadeActions.imp fun item a hread => ?_)
      obtain ⟨index, hread⟩ := hread
      exact pageKeptIff_action hread

def pageCommand : Value :=
  .record [("name", str "w"), ("match", str "/w"), ("http_get", .record [("url", str "u")]),
    ("reply", str "R \x7bhttp_response\x7d")]

def pageCommandMade : Value :=
  .record [("name", str "w"), ("internal_name", str "w"), ("match", str "/w"), ("pattern", str "^/w$"),
    ("description", str "响应 /w 命令"), ("type", str "reply"), ("reply", str "R \x7bhttp_response\x7d")]

/-- The request of the command is lost. -/
theorem pageCommand_request_lost : ∃ data, normalize "<data>" (scriptWith "commands" pageCommand) = .ok data ∧
    data.item "commands" = .ok (.list [pageCommandMade]) ∧ pageCommandMade.holds "http_get" = .ok false :=
  ⟨_, rfl, rfl, rfl⟩

/-- The command is accepted, and as it has a reply, it is no longer one that fetches a page. -/
theorem pageCommand_not_kept : ∃ data, normalize "<data>" (scriptWith "commands" pageCommand) = .ok data ∧
    data.item "commands" = .ok (.list [pageCommandMade]) ∧
    ¬ IsPage pageCommandMade (.record [("url", str "u")]) (str "R \x7bhttp_response\x7d") := by
  have hdata : normalize "<data>" (scriptWith "commands" pageCommand) = .ok _ := rfl
  obtain ⟨entries, commands, _, made, _, hentries, hcommands, hmade, hkept, -⟩ := page_kept_iff hdata
  refine ⟨_, hdata, rfl, ?_⟩
  cases hentries
  cases hcommands with
  | missing h => cases h
  | list h hv =>
    cases h
    cases hv
    cases hmade
    obtain ⟨fields, hfields, hpage⟩ := (List.forall₂_cons.mp hkept).1
    cases hfields
    intro h
    exact absurd ((hpage _ rfl rfl rfl).1.mp h) (by decide)

end PluginKit.Script
