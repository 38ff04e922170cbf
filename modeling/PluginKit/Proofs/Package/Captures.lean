import PluginKit.Proofs.Package.Classes
import PluginKit.Proofs.Script.Groups

/-!
# Parameters of a command

A command with a match text such as `/weather {city}` fills the word `city` into its reply or into the address it
fetches. Its method asks for the word by name (`Fills.exists_line`), but the regular expression of the match text
captures it without a name. So the word that was typed never arrives (`parameters_read_iff`).
-/

namespace PluginKit.Package

open List
open Value (str bind_eq_ok)
open Script (placeholders matchPattern groups matchedGroups readGroup groups_matchPattern readGroup_matchPattern)

/-! ### What a method asks for -/

/-- The text of a command into which words of the message are filled: its reply, or the address of its page. -/
inductive Fills (command : Value) : Text → Prop where
  | reply {text : Text} (type : command.get "type" (str "reply") = .ok (str "reply"))
      (reply : command.item "reply" = .ok (str text)) : Fills command text
  | page {request : Value} {url : Text} (type : command.get "type" (str "reply") = .ok (str "http_get"))
      (item : command.item "http_get" = .ok request) (address : requestUrl request = .ok (str url)) : Fills command url

def askingCode (name : Text) : Text :=
  name ++ " = self.matched_groups.get(\"" ++ name ++ "\", \"\")"

theorem render_captureLine (level : Nat) (name : Text) : (captureLine level name).statement.render = askingCode name := by
  show name ++ (" = " : Text) ++ (("self.matched_groups.get(\"" : Text) ++ name ++ ("\", \"\")" : Text)) = _
  rw [askingCode, ← append_assoc, ← append_assoc, append_assoc name]
  rfl

theorem captureLine_mem_replyLines {level : Nat} {reply name : Text} (h : name ∈ variablesIn reply)
    (hne : name ≠ senderVariable) : captureLine level name ∈ replyLines level reply := by
  have hfilter : name ∈ (variablesIn reply).filter (· != senderVariable) :=
    mem_filter.mpr ⟨h, bne_iff_ne.mpr hne⟩
  exact mem_append_left _ (mem_append_right _ (mem_map_of_mem hfilter))

/-- **The method asks for every word of the text by its name**, other than for the name of the sender. -/
theorem Fills.exists_line {className text name : Text} {command : Value} {lines : List Line}
    (hfills : Fills command text) (h : commandBody className command = .ok lines) (hname : name ∈ variablesIn text)
    (hne : name ≠ senderVariable) : ∃ l ∈ lines, l.statement.render = askingCode name := by
  obtain ⟨type, htype, h⟩ := bind_eq_ok.mp h
  cases hfills with
  | reply htype' hreply =>
    cases htype.symm.trans htype'
    obtain ⟨reply, hreply', h⟩ := bind_eq_ok.mp h
    cases hreply.symm.trans hreply'
    cases h
    exact ⟨captureLine 2 name, captureLine_mem_replyLines hname hne, render_captureLine 2 name⟩
  | page htype' hitem haddress =>
    cases htype.symm.trans htype'
    obtain ⟨request, hitem', h⟩ := bind_eq_ok.mp h
    cases hitem.symm.trans hitem'
    obtain ⟨address, haddress', h⟩ := bind_eq_ok.mp h
    cases haddress.symm.trans haddress'
    obtain ⟨template, -, h⟩ := bind_eq_ok.mp h
    obtain ⟨url, hurl, h⟩ := bind_eq_ok.mp h
    cases hurl
    obtain ⟨reply, -, h⟩ := bind_eq_ok.mp h
    cases h
    refine ⟨captureLine 3 name, ?_, render_captureLine 3 name⟩
    exact mem_append_left _ (mem_append_left _ (mem_append_right _ (mem_map_of_mem hname)))

/-! ### What it is given -/

/-- Whatever words a message holds at the placeholders of a match text, asking for the word of a name gives the word
at each placeholder of that name. -/
def ReadsTyped (m name : Text) : Prop :=
  ∀ typed : List Text, typed.length = (placeholders m).length → (∀ word ∈ typed, word ≠ []) →
    ∀ word, (name, word) ∈ (placeholders m).zip typed →
      readGroup (matchedGroups (matchPattern m) typed) name = word

theorem not_readsTyped {m name : Text} (hm : m.head? ≠ some (.scalar '^')) (hname : name ∈ placeholders m) :
    ¬ ReadsTyped m name := by
  intro h
  have hzip : (name, ("x" : Text)) ∈ (placeholders m).zip ((placeholders m).map fun _ => ("x" : Text)) := by
    rw [← map_prod_left_eq_zip]
    exact mem_map.mpr ⟨name, hname, rfl⟩
  have hword : ∀ word ∈ (placeholders m).map fun _ => ("x" : Text), word ≠ [] := by
    intro word hmem
    obtain ⟨_, -, rfl⟩ := mem_map.mp hmem
    decide
  have hread := h _ (length_map _) hword _ hzip
  rw [readGroup_matchPattern hm] at hread
  cases hread

theorem not_named {m name : Text} (hm : m.head? ≠ some (.scalar '^')) : some name ∉ groups (matchPattern m) := by
  rw [groups_matchPattern hm]
  intro h
  obtain ⟨_, -, hnone⟩ := mem_map.mp h
  cases hnone

theorem forall_mem_iff_eq_nil {names : List Text} {P : Text → Prop} (h : ∀ name ∈ names, ¬ P name) :
    (∀ name ∈ names, P name) ↔ names = [] :=
  ⟨fun hall => eq_nil_iff_forall_not_mem.mpr fun name hname => h name hname (hall name hname),
    fun hnil => hnil ▸ nofun⟩

/-- **A placeholder is never captured under its name.** Of a match text that is no regular expression itself, all
placeholders are groups with their names, and all of them can be read by their names, exactly if there are none; and
what the method of its command asks for by name is always empty. -/
theorem parameters_read_iff {m : Text} (hm : m.head? ≠ some (.scalar '^')) :
    (groups (matchPattern m) = (placeholders m).map fun _ => none) ∧
      ((∀ name ∈ placeholders m, some name ∈ groups (matchPattern m)) ↔ placeholders m = []) ∧
      ((∀ name ∈ placeholders m, ReadsTyped m name) ↔ placeholders m = []) ∧
      ∀ {start text : Text} {command : Value} {c : ComponentClass}, commandClass start command = .ok c →
        command.item "pattern" = .ok (str (matchPattern m)) → Fills command text →
        (∃ title, c.trigger = .command title (matchPattern m)) ∧
          ∀ name ∈ variablesIn text, name ≠ senderVariable →
            (∃ l ∈ c.body, l.statement.render = askingCode name) ∧
              ∀ typed, readGroup (matchedGroups (matchPattern m) typed) name = [] := by
  refine ⟨groups_matchPattern hm, forall_mem_iff_eq_nil fun name _ => not_named hm,
    forall_mem_iff_eq_nil fun name => not_readsTyped hm, ?_⟩
  intro start text command c hc hpattern hfills
  obtain ⟨internalName, title, matchText, description, v, pattern, lines, -, hv, hdisplay, hlines, rfl⟩ :=
    commandClass_eq_ok hc
  cases hpattern.symm.trans hv
  cases hdisplay
  refine ⟨⟨matchText, rfl⟩, fun name hname hne => ⟨?_, fun typed => readGroup_matchPattern hm typed name⟩⟩
  obtain ⟨l, hl, hrender⟩ := hfills.exists_line hlines hname hne
  exact ⟨l, List.mem_append_left _ hl, hrender⟩

def weatherMatch : Text := "/天气 \x7bcity\x7d"

def weatherCommand : Value := .record [("internal_name", str "w"), ("name", str "w"), ("match", str weatherMatch),
  ("pattern", str (matchPattern weatherMatch)), ("reply", str "\x7bcity\x7d")]

theorem weatherMatch_placeholders : placeholders weatherMatch = ["city"] := by decide +kernel

theorem weatherCommand_parameter_lost :
    weatherMatch.head? ≠ some (.scalar '^') ∧ groups (matchPattern weatherMatch) = [none] ∧
      ¬ (∀ name ∈ placeholders weatherMatch, ReadsTyped weatherMatch name) ∧
      ∃ c, commandClass "Sky" weatherCommand = .ok c ∧ Fills weatherCommand "\x7bcity\x7d" ∧
        (∃ l ∈ c.body, l.statement.render = askingCode "city") ∧
        ∀ typed, readGroup (matchedGroups (matchPattern weatherMatch) typed) "city" = [] := by
  have hm : weatherMatch.head? ≠ some (.scalar '^') := by decide
  obtain ⟨hgroups, -, hread, hclass⟩ := parameters_read_iff hm
  have hfills : Fills weatherCommand "\x7bcity\x7d" := .reply rfl rfl
  have hcity : ("city" : Text) ∈ variablesIn "\x7bcity\x7d" := by decide +kernel
  rw [weatherMatch_placeholders] at hgroups hread
  refine ⟨hm, hgroups, ?_, _, rfl, hfills, (hclass rfl rfl hfills).2 _ hcity (by decide)⟩
  rw [weatherMatch_placeholders]
  exact fun hall => absurd (hread.mp hall) (by decide)

/-- The placeholder `city` stands in the match text, and no group of its regular expression has the name. -/
theorem weatherMatch_city_unnamed :
    matchPattern weatherMatch = "^/天气\\ (.+)$" ∧ ("city" : Text) ∈ placeholders weatherMatch ∧
      some ("city" : Text) ∉ groups (matchPattern weatherMatch) := by
  have hm : weatherMatch.head? ≠ some (.scalar '^') := by decide
  refine ⟨by decide +kernel, ?_, not_named hm⟩
  rw [weatherMatch_placeholders]
  exact List.mem_singleton_self _

end PluginKit.Package
