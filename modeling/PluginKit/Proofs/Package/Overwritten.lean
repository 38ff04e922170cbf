import PluginKit.Proofs.Package.Variables

/-!
# Parameters in the reply of an action

The method of an action reads the parameters that the bot decided on, and then sets the words of the reply, as it is done
for commands. So a parameter that stands in the reply is set twice, and the second time from a message that was never
matched: what the bot decided on is lost, other than under a name that is no word (`parameter_kept_iff`).
-/

namespace PluginKit.Package

open List
open Value (str)
open Script (Action IsName inBraces)

/-! ### The last line that sets a variable -/

def lastSetter? (lines : List Line) (word : Text) : Option Line :=
  lines.reverse.find? fun l => decide (l.Sets word)

theorem lastSetter?_append (xs ys : List Line) (word : Text) :
    lastSetter? (xs ++ ys) word = (lastSetter? ys word).or (lastSetter? xs word) := by
  rw [lastSetter?, reverse_append, List.find?_append]
  rfl

theorem lastSetter?_map {line : Text → Line} {word : Text} (hsets : ∀ name, (line name).Sets word ↔ name = word)
    (names : List Text) : lastSetter? (names.map line) word = if word ∈ names then some (line word) else none := by
  rw [lastSetter?, ← map_reverse, find?_map]
  cases h : names.reverse.find? ((fun l : Line => decide (l.Sets word)) ∘ line) with
  | none =>
    have hnone := List.find?_eq_none.mp h
    rw [if_neg, Option.map_none]
    intro hword
    exact hnone word (mem_reverse.mpr hword) (decide_eq_true ((hsets word).mpr rfl))
  | some name =>
    have hfound : decide ((line name).Sets word) = true := find?_some (p := fun n => decide ((line n).Sets word)) h
    have hname : name = word := (hsets name).mp (of_decide_eq_true hfound)
    subst hname
    rw [if_pos (mem_reverse.mp (mem_of_find?_eq_some h)), Option.map_some]

def replySetter (level : Nat) (word : Text) : Line :=
  if word = senderVariable then senderLine level else captureLine level word

theorem lastSetter?_replySetters (level : Nat) (text word : Text) : lastSetter? (replySetters level text) word
    = if word ∈ variablesIn text then some (replySetter level word) else none := by
  have hcaptures : lastSetter? (((variablesIn text).filter (· != senderVariable)).map (captureLine level)) word = _ :=
    lastSetter?_map (fun _ => sets_captureLine) _
  simp only [mem_filter, bne_iff_ne] at hcaptures
  rw [replySetters, lastSetter?_append, hcaptures, replySetter]
  by_cases hsender : word = senderVariable
  · -- only the first line can set the name of the sender
    subst hsender
    rw [if_neg (fun h => h.2 rfl), Option.none_or, if_pos rfl]
    by_cases hword : senderVariable ∈ variablesIn text
    · rw [if_pos hword, if_pos (contains_iff_mem.mpr hword)]
      exact find?_cons_of_pos (decide_eq_true (sets_assign.mpr rfl))
    · rw [if_neg hword, if_neg (fun h => hword (contains_iff_mem.mp h))]
      rfl
  · have hfirst : lastSetter? (if (variablesIn text).contains senderVariable then [senderLine level] else []) word
        = none := by
      split
      · exact find?_cons_of_neg fun h => hsender (sets_assign.mp (of_decide_eq_true h)).symm
      · rfl
    rw [hfirst, Option.or_none, if_neg hsender]
    by_cases hword : word ∈ variablesIn text
    · rw [if_pos hword, if_pos ⟨hword, hsender⟩]
    · rw [if_neg hword, if_neg fun h => hword h.1]

/-! ### Replies of actions -/

def Line.isSend (l : Line) : Bool :=
  match l.statement with
  | .send _ => true
  | _ => false

theorem isSend_replySetters {level : Nat} {text : Text} : ∀ l ∈ replySetters level text, l.isSend = false := by
  intro l hl
  rcases mem_replySetters.mp hl with ⟨-, rfl⟩ | ⟨name, -, -, rfl⟩
  · rfl
  · rfl

theorem parameterLine_ne_replySetter (level : Nat) (word : Text) : parameterLine level word ≠ replySetter level word := by
  unfold replySetter
  split
  · next h =>
    subst h
    simp [parameterLine, senderLine, Line.assign, Text.ofString]
  · simp [parameterLine, captureLine, Line.assign, Text.ofString]

/-- **Parameters in the reply of an action.** The method sends once, the reply. Of a parameter that stands there in
braces, the value that was read is the last one that is set before exactly if its name is no word; else the line that
sets it for the reply comes later. -/
theorem parameter_kept_iff {start reply : Text} {a : Action} (hreply : a.response = .reply reply) {cls : ComponentClass}
    (h : actionClass start a.toValue = .ok cls) :
    ∃ before after, cls.body = before ++ .send 2 (.template reply) :: after ∧
      (∀ l ∈ before ++ after, l.isSend = false) ∧
      ∀ keys, a.params.elements = .ok keys → ∀ key ∈ keys, ∀ word, key.display = .ok word →
        inBraces word <:+: reply →
          (lastSetter? before word = some (parameterLine 2 word) ↔ ¬ IsName word) ∧
            (IsName word → lastSetter? before word = some (replySetter 2 word)) := by
  obtain ⟨className, title, names, lines, hnames, hlines, hbody⟩ := actionClass_body h
  have hshows := Script.shows_action a
  rw [hreply] at hshows
  rw [actionBody_reply hshows] at hlines
  cases hlines
  refine ⟨names.map (parameterLine 2) ++ replySetters 2 reply, [.code 2 ("return True, \"" ++ title ++ " 执行成功\"")],
    ?_, ?_, fun keys hkeys key hkey word hword hmem => ?_⟩
  · rw [hbody, replyLines_eq, List.append_assoc (replySetters 2 reply), ← List.append_assoc]
    rfl
  · simp only [List.forall_mem_append, List.forall_mem_map, List.forall_mem_singleton]
    exact ⟨⟨fun _ _ => rfl, isSend_replySetters⟩, rfl⟩
  · have hread : word ∈ names := (hnames word).mpr (.inr ⟨keys, hkeys, key, hkey, hword⟩)
    rw [lastSetter?_append, lastSetter?_replySetters, lastSetter?_map fun _ => sets_parameterLine, if_pos hread]
    by_cases hname : IsName word
    · rw [if_pos (mem_variablesIn_iff.mpr ⟨hname, hmem⟩), Option.some_or]
      refine ⟨iff_of_false (fun he => ?_) (not_not.mpr hname), fun _ => rfl⟩
      exact parameterLine_ne_replySetter 2 word (Option.some.inj he).symm
    · rw [if_neg fun hw => hname (mem_variablesIn_iff.mp hw).1, Option.none_or]
      exact ⟨iff_of_true rfl hname, fun hn => absurd hn hname⟩

/-- An action with two parameters in its reply, of which only one has a word for a name. -/
def skyAction : Value := .record [("name", str "sky"), ("when", str "w"),
  ("params", .record [("city", str "where"), ("the day", str "when")]), ("reply", str "\x7bcity\x7d, \x7bthe day\x7d")]

theorem skyAction_parameters : ∃ a cls before after, Action.ofValue "<string>" 0 skyAction = .ok a ∧
    a.response = .reply "\x7bcity\x7d, \x7bthe day\x7d" ∧ actionClass "P" a.toValue = .ok cls ∧
    cls.body = before ++ .send 2 (.template "\x7bcity\x7d, \x7bthe day\x7d") :: after ∧
    lastSetter? before "city" = some (captureLine 2 "city") ∧
    lastSetter? before "the day" = some (parameterLine 2 "the day") := by
  obtain ⟨a, ha, hreply, ⟨keys, hkeys, hcity, hday⟩, cls, hcls⟩ : ∃ a, Action.ofValue "<string>" 0 skyAction = .ok a ∧
      a.response = .reply "\x7bcity\x7d, \x7bthe day\x7d" ∧
      (∃ keys, a.params.elements = .ok keys ∧ str "city" ∈ keys ∧ str "the day" ∈ keys) ∧
      ∃ cls, actionClass "P" a.toValue = .ok cls :=
    ⟨_, rfl, rfl, ⟨_, rfl, List.mem_cons_self, List.mem_cons_of_mem _ List.mem_cons_self⟩, _, rfl⟩
  obtain ⟨before, after, hbody, -, hkept⟩ := parameter_kept_iff hreply hcls
  refine ⟨a, cls, before, after, ha, hreply, hcls, hbody, ?_, ?_⟩
  · exact (hkept keys hkeys _ hcity "city" rfl (by decide)).2 ⟨by decide, by decide⟩
  · refine (hkept keys hkeys _ hday "the day" rfl (by decide)).1.mpr fun h => ?_
    exact absurd h.2 (by decide)

/-- The city that was read is lost before the reply is sent. -/
theorem skyAction_city_lost : ∃ a cls, Action.ofValue "<string>" 0 skyAction = .ok a ∧
    actionClass "P" a.toValue = .ok cls ∧ cls.body =
      [parameterLine 2 "reason", parameterLine 2 "city", parameterLine 2 "the day", captureLine 2 "city",
        .send 2 (.template "\x7bcity\x7d, \x7bthe day\x7d"), .code 2 "return True, \"sky 执行成功\""] := by
  refine ⟨_, _, rfl, rfl, ?_⟩
  rfl

end PluginKit.Package
