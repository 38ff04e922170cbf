import PluginKit.Proofs.Script.Refusal

/-!
# What an accepted script defines

Each component that an accepted script defines is that of one item of its section, in the order of the items
(`ofValue_ok`). Its name and its trigger are those of the item (`command_ofValue_ok`, `action_ofValue_ok`), and its response is
the declared one, of which all texts are texts (`Response.Plain`). Parameters and configuration are mappings.
-/

namespace PluginKit.Script

open Value (str bind_eq_ok)

variable {α : Type} {entries : List (Value × Value)} {source : Text} {index : Nat} {v : Value} {items : List Value}
  {xs : List α}

/-- The reply to a fetched page is a text; the other responses consist of texts anyway. -/
def Response.Plain : Response → Prop
  | .httpGet _ shown => ∃ text, shown = str text
  | _ => True

theorem response_plain {r : Response} (h : Response.ofEntries? entries = .ok (some r)) : r.Plain := by
  unfold Response.ofEntries? at h
  split at h
  · obtain ⟨text, -, h⟩ := bind_eq_ok.mp h
    cases h
    trivial
  · next hreply =>
    split at h
    · obtain ⟨text, -, h⟩ := bind_eq_ok.mp h
      cases h
      trivial
    · split at h
      · obtain ⟨text, -, h⟩ := bind_eq_ok.mp h
        cases h
        trivial
      · -- a page is fetched only where no reply is declared, so that the reply is the default
        rw [hreply] at h
        cases hget : Value.field? "http_get" entries with
        | none =>
          rw [hget] at h
          cases h
        | some request =>
          rw [hget] at h
          cases h
          exact ⟨_, rfl⟩

theorem view_mappingOrEmpty (v : Value) : ∃ entries, (mappingOrEmpty v).view = .dict entries := by
  unfold mappingOrEmpty
  split
  · next h => exact ⟨_, h⟩
  · exact ⟨[], rfl⟩

theorem command_ofValue_ok {c : Command}
    (h : Command.ofValue source index v = .ok c) :
    ∃ entries, v.view = .dict entries ∧ presentField? "name" entries = some (str c.name) ∧
      presentField? "match" entries = some (str c.matchText) ∧ Response.ofEntries? entries = .ok (some c.response) ∧
      c.internalName = safeName c.name ∧ c.pattern = matchPattern c.matchText := by
  unfold Command.ofValue at h
  dsimp only at h
  split at h
  · next entries hv =>
    split at h
    · next nameValue hname =>
      split at h
      · next matchValue hmatch =>
        obtain ⟨text, htext, h⟩ := bind_eq_ok.mp h
        obtain ⟨name, hnameText, h⟩ := bind_eq_ok.mp h
        obtain ⟨response, hresponse, h⟩ := bind_eq_ok.mp h
        have hmatchValue : matchValue = str text := by
          unfold asMatchText at htext
          split at htext
          · cases htext
            rfl
          · cases htext
          · cases htext
        rw [hmatchValue] at hmatch
        rw [Value.text_eq_ok.mp hnameText] at hname
        split at h
        · cases h
          exact ⟨entries, hv, hname, hmatch, hresponse, rfl, rfl⟩
        · cases h
      · obtain ⟨_, -, h⟩ := bind_eq_ok.mp h
        cases h
    · cases h
  · cases h

theorem action_ofValue_ok {a : Action}
    (h : Action.ofValue source index v = .ok a) :
    ∃ entries trigger, v.view = .dict entries ∧ presentField? "name" entries = some (str a.name) ∧
      presentField? "when" entries = some trigger ∧ a.triggers = triggerList trigger ∧
      Response.ofEntries? entries = .ok (some a.response) ∧ a.internalName = safeName a.name ∧
      ∃ params, a.params.view = .dict params := by
  unfold Action.ofValue at h
  dsimp only at h
  split at h
  · next entries hv =>
    split at h
    · next nameValue hname =>
      split at h
      · next trigger htrigger =>
        obtain ⟨name, hnameText, h⟩ := bind_eq_ok.mp h
        obtain ⟨first, -, h⟩ := bind_eq_ok.mp h
        obtain ⟨shown, -, h⟩ := bind_eq_ok.mp h
        obtain ⟨response, hresponse, h⟩ := bind_eq_ok.mp h
        rw [Value.text_eq_ok.mp hnameText] at hname
        split at h
        · cases h
          exact ⟨entries, trigger, hv, hname, htrigger, rfl, hresponse, rfl, view_mappingOrEmpty _⟩
        · cases h
      · obtain ⟨_, -, h⟩ := bind_eq_ok.mp h
        cases h
    · cases h
  · cases h

/-! ### Whole scripts -/

theorem readItems_ok {read : Nat → Value → Outcome α}
    (h : readItems read index items = .ok xs) : List.Forall₂ (fun v x => ∃ i, read i v = .ok x) items xs := by
  induction items generalizing index xs with
  | nil =>
    cases h
    exact .nil
  | cons v items ih =>
    obtain ⟨x, hx, h⟩ := bind_eq_ok.mp h
    obtain ⟨rest, hrest, h⟩ := bind_eq_ok.mp h
    cases h
    exact .cons ⟨index, hx⟩ (ih hrest)

theorem isSection_of_ok {part : Section}
    (h : sectionItems source part entries = .ok items) : IsSection part entries items := by
  rcases sectionItems_eq source part entries with ⟨items', hitems, hsection⟩ | ⟨⟨e, he⟩, -⟩
  · rw [hitems] at h
    cases h
    exact (hsection _).mpr rfl
  · rw [he] at h
    cases h

/-- **What an accepted mapping defines**, part by part. -/
theorem ofValue_ok {d : Definition} (h : Definition.ofValue source v = .ok d) :
    ∃ entries plugin commands actions, v.view = .dict entries ∧
      ((Value.field? "plugin" entries).getD (.dict [])).view = .dict plugin ∧
      PluginInfo.ofEntries source plugin = .ok d.plugin ∧ IsSection .commands entries commands ∧
      List.Forall₂ (fun v c => ∃ i, Command.ofValue source i v = .ok c) commands d.commands ∧
      IsSection .actions entries actions ∧
      List.Forall₂ (fun v a => ∃ i, Action.ofValue source i v = .ok a) actions d.actions ∧
      ∃ config, d.config.view = .dict config := by
  obtain ⟨entries, hentries, h⟩ := bind_eq_ok.mp h
  have hv : v.view = .dict entries := by
    unfold Value.entriesFor at hentries
    split at hentries
    · next entries' hv =>
      cases hentries
      exact hv
    · cases hentries
  split at h
  · next plugin hplugin =>
    obtain ⟨info, hinfo, h⟩ := bind_eq_ok.mp h
    obtain ⟨commandItems, hcommandItems, h⟩ := bind_eq_ok.mp h
    obtain ⟨commands, hcommands, h⟩ := bind_eq_ok.mp h
    obtain ⟨actionItems, hactionItems, h⟩ := bind_eq_ok.mp h
    obtain ⟨actions, hactions, h⟩ := bind_eq_ok.mp h
    cases h
    exact ⟨entries, plugin, commandItems, actionItems, hv, hplugin, hinfo, isSection_of_ok hcommandItems,
      readItems_ok hcommands, isSection_of_ok hactionItems, readItems_ok hactions, view_mappingOrEmpty _⟩
  · cases h

/-- All that a definition leaves open in its components and its configuration is as an accepted script has it. -/
structure Definition.Complete (d : Definition) : Prop where
  commands : ∀ c ∈ d.commands, c.response.Plain
  actions : ∀ a ∈ d.actions, a.response.Plain
  params : ∀ a ∈ d.actions, ∃ entries, a.params.view = .dict entries
  config : ∃ entries, d.config.view = .dict entries

theorem exists_item {R : Value → α → Prop} {x : α} (h : List.Forall₂ R items xs) (hx : x ∈ xs) : ∃ v, R v x := by
  induction h with
  | nil => cases hx
  | cons hv _ ih =>
    rcases List.mem_cons.mp hx with rfl | hx
    · exact ⟨_, hv⟩
    · exact ih hx

theorem complete_of_ofValue {d : Definition} (h : Definition.ofValue source v = .ok d) : d.Complete := by
  obtain ⟨entries, plugin, commands, actions, -, -, -, -, hcommands, -, hactions, hconfig⟩ := ofValue_ok h
  refine ⟨fun c hc => ?_, fun a ha => ?_, fun a ha => ?_, hconfig⟩
  · obtain ⟨u, i, hu⟩ := exists_item hcommands hc
    obtain ⟨_, -, -, -, hresponse, -⟩ := command_ofValue_ok hu
    exact response_plain hresponse
  · obtain ⟨u, i, hu⟩ := exists_item hactions ha
    obtain ⟨_, _, -, -, -, -, hresponse, -⟩ := action_ofValue_ok hu
    exact response_plain hresponse
  · obtain ⟨u, i, hu⟩ := exists_item hactions ha
    obtain ⟨_, _, -, -, -, -, -, -, hparams⟩ := action_ofValue_ok hu
    exact hparams

end PluginKit.Script
