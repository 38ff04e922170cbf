import PluginKit.Proofs.Package.Captures
import PluginKit.Proofs.Package.Found
import PluginKit.Proofs.Script.SinglePass

/-!
# Variables of generated methods

The method of a component fills variables into texts of its author: a reply, an address, a prompt. What the method does
for a response is said once (`Performs`), for commands and actions alike. From this follows which words are set before
the text that needs them (`words_set_iff`): all words of a reply, those of the address that a command fetches, and the
page itself; but of the address that an action fetches, and of a prompt, only what is a parameter of the action.
-/

namespace PluginKit.Package

open List
open Value (str bind_eq_ok ok_bind)
open Script (Action Command Definition Response IsName inBraces placeholders)

variable {level : Nat} {name className : Text} {role : Role} {entries : List (Value × Value)}

/-! ### Lines and variables -/

/-- The text of an expression in which words in braces are filled in. -/
def Expr.template? : Expr → Option Text
  | .template text => some text
  | .longTemplate text => some text
  | _ => none

/-- The text in which the line fills in words in braces. -/
def Line.filled? (l : Line) : Option Text :=
  match l.statement with
  | .assign _ value => value.template?
  | .send value => value.template?
  | _ => none

def Line.target? (l : Line) : Option Text :=
  match l.statement with
  | .assign name _ => some name
  | _ => none

def Line.Sets (l : Line) (word : Text) : Prop := l.target? = some word

instance (l : Line) (word : Text) : Decidable (l.Sets word) := inferInstanceAs (Decidable (_ = _))

/-- Wherever the lines fill in the text, a line before has set the variable. -/
def SetBefore (lines : List Line) (text word : Text) : Prop :=
  ∀ before l after, lines = before ++ l :: after → l.filled? = some text → ∃ l' ∈ before, l'.Sets word

/-- A line that sets no variable and fills in no word. -/
structure Line.Idle (l : Line) : Prop where
  sets : ∀ word, ¬ l.Sets word
  fills : ∀ text, l.filled? = some text → variablesIn text = []

theorem sets_assign {word : Text} {value : Expr} :
    (Line.assign level name value).Sets word ↔ name = word := Option.some_inj

theorem idle_of_none {l : Line} (htarget : l.target? = none) (hfilled : l.filled? = none) : l.Idle := by
  refine ⟨fun word h => ?_, fun text h => ?_⟩
  · rw [Line.Sets, htarget] at h
    cases h
  · rw [hfilled] at h
    cases h

@[simp]
theorem idle_code (level : Nat) (text : Text) : (Line.code level text).Idle := idle_of_none rfl rfl

@[simp]
theorem idle_unlessHttp (level : Nat) : (Line.mk level .unlessHttp).Idle := idle_of_none rfl rfl

@[simp]
theorem idle_plain (level : Nat) (code : Text) : (Line.send level (.plain code)).Idle := idle_of_none rfl rfl

@[simp]
theorem idle_quoted (level : Nat) (text : Text) : (Line.send level (.quoted text)).Idle := idle_of_none rfl rfl

/-- The report of a failure shows it with a call, which is no word. -/
theorem idle_failureLine {what : Text} (h : variablesIn ("❌ " ++ what ++ "失败：\x7bstr(e)\x7d") = []) :
    (failureLine what).Idle := by
  refine ⟨fun word hset => ?_, fun text hfilled => ?_⟩
  · cases hset
  · cases hfilled
    exact h

/-- A text is filled in with the words that stand in it in braces. -/
theorem mem_variablesIn_iff {text word : Text} : word ∈ variablesIn text ↔ IsName word ∧ inBraces word <:+: text :=
  Script.mem_placeholders_iff

section
variable {xs ys : List Line} {text word : Text}

theorem setBefore_append : SetBefore (xs ++ ys) text word ↔
    SetBefore xs text word ∧ ((∃ l ∈ xs, l.Sets word) ∨ SetBefore ys text word) := by
  constructor
  · intro h
    refine ⟨fun before l after hxs hl => ?_, or_iff_not_imp_left.mpr fun hset before l after hys hl => ?_⟩
    · exact h before l (after ++ ys) (by rw [hxs, append_assoc, cons_append]) hl
    · obtain ⟨l', hl', hsets⟩ := h (xs ++ before) l after (by rw [hys, append_assoc]) hl
      rcases mem_append.mp hl' with hl' | hl'
      · exact absurd ⟨l', hl', hsets⟩ hset
      · exact ⟨l', hl', hsets⟩
  · rintro ⟨hxs, hys⟩ before l after hsplit hl
    rcases append_eq_append_iff.mp hsplit with ⟨zs, rfl, hzs⟩ | ⟨zs, rfl, hzs⟩
    · rcases hys with ⟨l', hl', hsets⟩ | hys
      · exact ⟨l', mem_append_left _ hl', hsets⟩
      · obtain ⟨l', hl', hsets⟩ := hys zs l after hzs hl
        exact ⟨l', mem_append_right _ hl', hsets⟩
    · cases zs with
      | nil =>
        rw [append_nil] at hys
        rcases hys with hset | hys
        · exact hset
        · obtain ⟨_, hl', -⟩ := hys [] l after hzs.symm hl
          cases hl'
      | cons z zs =>
        cases hzs
        exact hxs before l zs rfl hl

theorem setBefore_of_unfilled (h : ∀ l ∈ xs, l.filled? ≠ some text) : SetBefore xs text word := by
  rintro before l after rfl hl
  exact absurd hl (h l (mem_append_right _ mem_cons_self))

theorem not_setBefore_cons {l : Line} (h : l.filled? = some text) (ys : List Line) :
    ¬ SetBefore (l :: ys) text word := by
  intro hset
  obtain ⟨_, hl', -⟩ := hset [] l ys rfl h
  cases hl'

theorem setBefore_idle_append (hxs : ∀ l ∈ xs, l.Idle) (hword : word ∈ variablesIn text) :
    SetBefore (xs ++ ys) text word ↔ SetBefore ys text word := by
  have hunfilled : ∀ l ∈ xs, l.filled? ≠ some text := by
    intro l hl htext
    rw [(hxs l hl).fills text htext] at hword
    cases hword
  rw [setBefore_append, and_iff_right (setBefore_of_unfilled hunfilled), or_iff_right]
  rintro ⟨l, hl, hsets⟩
  exact (hxs l hl).sets word hsets

theorem setBefore_map_append {line : Text → Line} (hfilled : ∀ name, (line name).filled? = none)
    (hsets : ∀ name, (line name).Sets word ↔ name = word) (names : List Text) :
    SetBefore (names.map line ++ ys) text word ↔ word ∈ names ∨ SetBefore ys text word := by
  have hunfilled : ∀ l ∈ names.map line, l.filled? ≠ some text := by
    intro l hl htext
    obtain ⟨name, -, rfl⟩ := mem_map.mp hl
    rw [hfilled] at htext
    cases htext
  have hset : (∃ l ∈ names.map line, l.Sets word) ↔ word ∈ names := by
    simp [hsets]
  rw [setBefore_append, and_iff_right (setBefore_of_unfilled hunfilled), hset]

theorem not_setBefore_fetchLines (address : Text) (ys : List Line) :
    ¬ SetBefore (fetchLines address ++ ys) address word := not_setBefore_cons rfl _

def pageLine : Line := .assign 5 "http_response" (.plain "await resp.text()")

theorem setBefore_fetchLines {address : Text} (hne : text ≠ address) (ys : List Line) :
    SetBefore (fetchLines address ++ ys) text "http_response" := by
  refine setBefore_append.mpr ⟨setBefore_of_unfilled ?_, .inl ?_⟩
  · simp only [fetchLines, forall_mem_cons]
    refine ⟨fun h => hne (Option.some.inj h).symm, ?_⟩
    simp [Line.filled?, Line.code, Line.assign, Expr.template?]
  · exact ⟨pageLine, by simp [fetchLines, pageLine], sets_assign.mpr rfl⟩

end

/-! ### What a method does -/

/-- The words that are taken from the message for the address of a page. -/
def takenFor : Role → Text → List Text
  | .command, address => variablesIn address
  | .action, _ => []

/-- The lines of a method that perform a response, among others that set no variable and fill in no word. -/
inductive Performs (role : Role) : Response → List Line → Prop where
  | reply {text : Text} {back : List Line} (hback : ∀ l ∈ back, l.Idle) :
    Performs role (.reply text) (replyLines 2 text ++ back)
  | python {code : Text} {lines : List Line} (hlines : ∀ l ∈ lines, l.Idle) : Performs role (.python code) lines
  | prompt {text holder : Text} {template : Value} {front back : List Line} (hfront : ∀ l ∈ front, l.Idle)
    (hback : ∀ l ∈ back, l.Idle) :
    Performs role (.prompt text template) (front ++ .assign 3 holder (.longTemplate text) :: back)
  | page {request url : Value} {address shown : Text} {front back : List Line} (hurl : requestUrl request = .ok url)
    (haddress : url.display = .ok address) (hfront : ∀ l ∈ front, l.Idle) (hback : ∀ l ∈ back, l.Idle) :
    Performs role (.httpGet request (str shown))
      (front ++ ((takenFor role address).map (captureLine 3) ++ (fetchLines address ++ .send 3 (.template shown) :: back)))

theorem Performs.append {r : Response} {lines more : List Line} (h : Performs role r lines)
    (hmore : ∀ l ∈ more, l.Idle) : Performs role r (lines ++ more) := by
  cases h with
  | reply hback =>
    rw [append_assoc]
    exact .reply (forall_mem_append.mpr ⟨hback, hmore⟩)
  | python hlines => exact .python (forall_mem_append.mpr ⟨hlines, hmore⟩)
  | prompt hfront hback =>
    rw [append_assoc, cons_append]
    exact .prompt hfront (forall_mem_append.mpr ⟨hback, hmore⟩)
  | page hurl haddress hfront hback =>
    rw [append_assoc, append_assoc, append_assoc, cons_append]
    exact .page hurl haddress hfront (forall_mem_append.mpr ⟨hback, hmore⟩)

theorem idle_scriptLines (className : Text) (code : List Text) : ∀ l ∈ scriptLines className code, l.Idle := by
  simp [scriptLines, or_imp, forall_and]

/-- The lines of a prompt are one that fills it in, and others without words. -/
theorem promptLines_eq (holder prompt : Text) : ∃ front back, (∀ l ∈ front, l.Idle) ∧ (∀ l ∈ back, l.Idle) ∧
    promptLines holder prompt = front ++ .assign 3 holder (.longTemplate prompt) :: back := by
  refine ⟨[.code 2 "try:", .code 3 "from src.plugin_system.apis import generator_api"], _, ?_, ?_, rfl⟩
  · simp
  · simp

section
variable {component : Value} {r : Response} {lines : List Line}

/-- **The method of a command** performs its response. -/
theorem commandBody_performs (hshows : Script.Shows component r) (hplain : r.Plain)
    (h : commandBody className component = .ok lines) : Performs .command r lines := by
  have hitem := hshows.item
  have hexecute : (failureLine "执行").Idle := idle_failureLine (by decide)
  have hrequest : (failureLine "请求").Idle := idle_failureLine (by decide)
  have hgenerate : (failureLine "生成").Idle := idle_failureLine (by decide)
  unfold commandBody at h
  cases r with
  | reply text =>
    rw [Value.get_of_item (hitem "type" (by decide) _ rfl), ok_bind, if_pos (by decide),
      hitem "reply" (by decide) _ rfl] at h
    cases h
    rw [← append_nil (replyLines 2 text)]
    exact .reply nofun
  | python code =>
    rw [Value.get_of_item (hitem "type" (by decide) _ rfl), ok_bind, if_neg (by decide), if_pos (by decide),
      hitem "python" (by decide) _ rfl] at h
    cases h
    exact .python (forall_mem_append.mpr ⟨idle_scriptLines _ _, forall_mem_singleton.mpr hexecute⟩)
  | prompt text template =>
    rw [Value.get_of_item (hitem "type" (by decide) _ rfl), ok_bind, if_neg (by decide), if_neg (by decide),
      if_neg (by decide), if_pos (by decide), hitem "llm_prompt" (by decide) _ rfl] at h
    cases h
    obtain ⟨front, back, hfront, hback, heq⟩ := promptLines_eq "prompt_text" text
    rw [heq]
    refine (Performs.prompt hfront hback).append ?_
    simp [hgenerate]
  | httpGet request shown =>
    obtain ⟨shown, rfl⟩ := hplain
    rw [Value.get_of_item (hitem "type" (by decide) _ rfl), ok_bind, if_neg (by decide), if_neg (by decide),
      if_pos (by decide), hitem "http_get" (by decide) _ rfl, ok_bind] at h
    obtain ⟨url, hurl, h⟩ := bind_eq_ok.mp h
    rw [Value.get_of_item (hitem "reply" (by decide) _ rfl), ok_bind] at h
    obtain ⟨address, haddress, h⟩ := bind_eq_ok.mp h
    cases h
    rw [Value.text_eq_ok.mp haddress] at hurl
    rw [append_assoc, append_assoc]
    refine .page hurl rfl ?_ ?_
    · simp
    · simp [hrequest]

/-- The method of an action with a reply, once the parameters are read. -/
theorem actionBody_reply {text : Text} (hshows : Script.Shows component (.reply text)) :
    actionBody className name component
      = .ok (replyLines 2 text ++ [.code 2 ("return True, \"" ++ name ++ " 执行成功\"")]) := by
  rw [actionBody, Value.get_of_item (hshows.item "type" (by decide) _ rfl), ok_bind, if_pos (by decide),
    hshows.item "reply" (by decide) _ rfl]
  rfl

/-- **The method of an action** performs its response, once the parameters are read. -/
theorem actionBody_performs (hshows : Script.Shows component r) (hplain : r.Plain)
    (h : actionBody className name component = .ok lines) : Performs .action r lines := by
  have hitem := hshows.item
  have hrequest : (failureLine "请求").Idle := idle_failureLine (by decide)
  cases r with
  | reply text =>
    rw [actionBody_reply hshows] at h
    cases h
    exact .reply (forall_mem_singleton.mpr (idle_code _ _))
  | python code =>
    rw [actionBody, Value.get_of_item (hitem "type" (by decide) _ rfl), ok_bind, if_neg (by decide), if_pos (by decide),
      hitem "python" (by decide) _ rfl] at h
    cases h
    refine .python (forall_mem_append.mpr ⟨idle_scriptLines _ _, ?_⟩)
    simp
  | prompt text template =>
    rw [actionBody, Value.get_of_item (hitem "type" (by decide) _ rfl), ok_bind, if_neg (by decide), if_neg (by decide),
      if_neg (by decide), if_pos (by decide), hitem "llm_prompt" (by decide) _ rfl] at h
    cases h
    obtain ⟨front, back, hfront, hback, heq⟩ := promptLines_eq "extra" text
    rw [heq]
    refine (Performs.prompt hfront hback).append ?_
    simp
  | httpGet request shown =>
    obtain ⟨shown, rfl⟩ := hplain
    rw [actionBody, Value.get_of_item (hitem "type" (by decide) _ rfl), ok_bind, if_neg (by decide), if_neg (by decide),
      if_pos (by decide), hitem "http_get" (by decide) _ rfl, ok_bind] at h
    obtain ⟨url, hurl, h⟩ := bind_eq_ok.mp h
    rw [Value.get_of_item (hitem "reply" (by decide) _ rfl), ok_bind] at h
    obtain ⟨address, haddress, h⟩ := bind_eq_ok.mp h
    cases h
    rw [append_assoc]
    refine .page hurl haddress ?_ ?_
    · simp
    · simp [hrequest]

end

/-! ### Words of a response -/

/-- The texts of a response into which words are filled. -/
inductive FillsIn : Response → Text → Prop where
  | reply {text : Text} : FillsIn (.reply text) text
  | prompt {text : Text} {template : Value} : FillsIn (.prompt text template) text
  | address {request url shown : Value} {text : Text} (hurl : requestUrl request = .ok url)
    (htext : url.display = .ok text) : FillsIn (.httpGet request shown) text
  | page {request : Value} {text : Text} : FillsIn (.httpGet request (str text)) text

/-- The method takes nothing from the message for this text of the response. -/
inductive Unaided : Role → Response → Text → Prop where
  | prompt {role : Role} {text : Text} {template : Value} : Unaided role (.prompt text template) text
  | address {request url shown : Value} {text : Text} (hurl : requestUrl request = .ok url)
    (htext : url.display = .ok text) : Unaided .action (.httpGet request shown) text

theorem sets_captureLine {word : Text} : (captureLine level name).Sets word ↔ name = word := sets_assign

theorem sets_parameterLine {word : Text} : (parameterLine level name).Sets word ↔ name = word :=
  sets_assign

def replySetters (level : Nat) (text : Text) : List Line :=
  (if (variablesIn text).contains senderVariable then [senderLine level] else []) ++
    ((variablesIn text).filter (· != senderVariable)).map (captureLine level)

theorem replyLines_eq (level : Nat) (text : Text) :
    replyLines level text = replySetters level text ++ [.send level (.template text)] := rfl

theorem mem_replySetters {text : Text} {l : Line} : l ∈ replySetters level text ↔
    (senderVariable ∈ variablesIn text ∧ l = senderLine level) ∨
      ∃ name ∈ variablesIn text, name ≠ senderVariable ∧ l = captureLine level name := by
  rw [replySetters, mem_append, mem_map]
  refine or_congr ?_ (exists_congr fun name => ?_)
  · split
    · next h => rw [and_iff_right (contains_iff_mem.mp h), mem_singleton]
    · next h => exact iff_of_false not_mem_nil fun hsender => h (contains_iff_mem.mpr hsender.1)
  · rw [mem_filter, bne_iff_ne, and_assoc, eq_comm (a := l)]

theorem setBefore_replyLines {text word : Text} (hword : word ∈ variablesIn text) (level : Nat) (ys : List Line) :
    SetBefore (replyLines level text ++ ys) text word := by
  rw [replyLines_eq, append_assoc, setBefore_append]
  refine ⟨setBefore_of_unfilled fun l hl htext => ?_, .inl ?_⟩
  · rcases mem_replySetters.mp hl with ⟨-, rfl⟩ | ⟨name, -, -, rfl⟩
    · cases htext
    · cases htext
  · by_cases hsender : word = senderVariable
    · exact ⟨senderLine level, mem_replySetters.mpr (.inl ⟨hsender ▸ hword, rfl⟩), sets_assign.mpr hsender.symm⟩
    · exact ⟨captureLine level word, mem_replySetters.mpr (.inr ⟨word, hword, hsender, rfl⟩), sets_captureLine.mpr rfl⟩

/-- **Which words are set in time**: where the method takes nothing from the message, only the parameters that were
read before. -/
theorem Performs.setBefore_iff {r : Response} {lines : List Line}
    (h : Performs role r lines) (hdeclares : Script.Declares entries r) (names : List Text) {text word : Text}
    (htext : FillsIn r text) (hword : word ∈ variablesIn text) :
    SetBefore (names.map (parameterLine 2) ++ lines) text word ↔ (Unaided role r text → word ∈ names) := by
  rw [setBefore_map_append (fun _ => rfl) (fun _ => sets_parameterLine)]
  cases h with
  | reply hback =>
    cases htext
    refine iff_of_true (.inr (setBefore_replyLines hword 2 _)) fun h => ?_
    cases h
  | python hlines => cases htext
  | prompt hfront hback =>
    cases htext
    rw [setBefore_idle_append hfront hword, or_iff_left (not_setBefore_cons rfl _)]
    exact ⟨fun h _ => h, fun h => h .prompt⟩
  | @page request url address shown front back hurl haddress hfront hback =>
    rw [setBefore_idle_append hfront hword, setBefore_map_append (fun _ => rfl) (fun _ => sets_captureLine)]
    by_cases hsame : text = address
    · subst hsame
      rw [or_iff_left (not_setBefore_fetchLines text _)]
      cases role with
      | command =>
        refine iff_of_true (.inr hword) fun h => ?_
        cases h
      | action =>
        rw [takenFor, or_iff_left not_mem_nil]
        exact ⟨fun h _ => h, fun h => h (.address hurl haddress)⟩
    · have hother : ∀ url', requestUrl request = .ok url' → ¬ url'.display = .ok text := by
        intro url' hurl' htext'
        cases hurl.symm.trans hurl'
        exact hsame (Except.ok.inj (htext'.symm.trans haddress))
      have hpage : word = "http_response" := by
        cases htext with
        | address hurl' htext' => exact absurd htext' (hother _ hurl')
        | page =>
          -- an accepted script leaves the reply to a page to the default
          cases hdeclares
          have hwords : variablesIn ("\x7bhttp_response\x7d" : Text) = ["http_response"] := by decide
          rw [hwords] at hword
          exact mem_singleton.mp hword
      refine iff_of_true (.inr (.inr (hpage ▸ setBefore_fetchLines hsame _))) fun h => ?_
      cases h with
      | address hurl' htext' => exact absurd htext' (hother _ hurl')

theorem Performs.exists_filled {r : Response} {lines : List Line} {text : Text} (h : Performs role r lines)
    (htext : FillsIn r text) : ∃ l ∈ lines, l.filled? = some text := by
  cases h with
  | reply hback =>
    cases htext
    exact ⟨.send 2 (.template text), by simp [replyLines], rfl⟩
  | python hlines => cases htext
  | @prompt _ holder template front back hfront hback =>
    cases htext
    exact ⟨.assign 3 holder (.longTemplate text), by simp, rfl⟩
  | @page request url address shown front back hurl haddress hfront hback =>
    cases htext with
    | address hurl' htext' =>
      cases hurl.symm.trans hurl'
      cases haddress.symm.trans htext'
      exact ⟨.assign 3 "url" (.template text), by simp [fetchLines], rfl⟩
    | page => exact ⟨.send 3 (.template text), by simp, rfl⟩

/-- The name of the sender is set before the reply that holds it, -/
theorem Performs.sender_before {text : Text} {lines : List Line} (h : Performs role (.reply text) lines)
    (hsender : senderVariable ∈ variablesIn text) : [senderLine 2, .send 2 (.template text)].Sublist lines := by
  cases h with
  | reply hback =>
    have hset : [senderLine 2].Sublist (replySetters 2 text) :=
      singleton_sublist.mpr (mem_replySetters.mpr (.inl ⟨hsender, rfl⟩))
    exact (hset.append (List.Sublist.refl _)).trans (sublist_append_left _ _)

theorem Performs.page_before {request : Value} {text : Text} {lines : List Line}
    (h : Performs role (.httpGet request (str text)) lines) : [pageLine, .send 3 (.template text)].Sublist lines := by
  cases h with
  | @page _ url address _ front back hurl haddress hfront hback =>
    have hpage : [pageLine].Sublist (fetchLines address) := singleton_sublist.mpr (by simp [fetchLines, pageLine])
    have hsend : [Line.send 3 (.template text)].Sublist (Line.send 3 (.template text) :: back) :=
      singleton_sublist.mpr mem_cons_self
    exact ((hpage.append hsend).trans (sublist_append_right _ _)).trans (sublist_append_right _ _)

/-! ### Words of accepted components -/

/-- The lines of a method fill the words of a response into its texts, and a word is set before a text under a
condition. -/
structure FillsWords (lines : List Line) (r : Response) (isSet : Text → Text → Prop) : Prop where
  filled : ∀ text, FillsIn r text → ∃ l ∈ lines, l.filled? = some text
  set_iff : ∀ text, FillsIn r text → ∀ word, IsName word → inBraces word <:+: text →
    (SetBefore lines text word ↔ isSet text word)
  sender : ∀ text, r = .reply text → inBraces senderVariable <:+: text →
    [senderLine 2, .send 2 (.template text)].Sublist lines
  page : ∀ request text, r = .httpGet request (str text) → [pageLine, .send 3 (.template text)].Sublist lines

theorem Performs.fillsWords {r : Response} {lines : List Line}
    (h : Performs role r lines) (hdeclares : Script.Declares entries r) (names : List Text) :
    FillsWords (names.map (parameterLine 2) ++ lines) r fun text word => Unaided role r text → word ∈ names where
  filled := by
    intro text htext
    obtain ⟨l, hl, hfilled⟩ := h.exists_filled htext
    exact ⟨l, mem_append_right _ hl, hfilled⟩
  set_iff := by
    intro text htext word hname hword
    exact h.setBefore_iff hdeclares names htext (mem_variablesIn_iff.mpr ⟨hname, hword⟩)
  sender := by
    rintro text rfl hsender
    have hname : IsName senderVariable := ⟨by decide, by decide⟩
    exact (h.sender_before (mem_variablesIn_iff.mpr ⟨hname, hsender⟩)).trans (sublist_append_right _ _)
  page := by
    rintro request text rfl
    exact h.page_before.trans (sublist_append_right _ _)

/-- The action has a parameter of this name; each one has a reason. -/
def HasParameter (a : Action) (word : Text) : Prop :=
  word = "reason" ∨ ∃ keys, a.params.elements = .ok keys ∧ ∃ key ∈ keys, key.display = .ok word

theorem mem_of_made {α β : Type} {f : α → Outcome β} {xs : List α} {ys : List β}
    (h : List.Forall₂ (fun x y => f x = .ok y) xs ys) {y : β} : y ∈ ys ↔ ∃ x ∈ xs, f x = .ok y := by
  induction h with
  | nil => simp
  | cons hxy _ ih => rw [mem_cons, ih, exists_mem_cons_iff, hxy, Except.ok.injEq, eq_comm]

theorem actionClass_body {start : Text} {a : Action} {cls : ComponentClass}
    (h : actionClass start a.toValue = .ok cls) : ∃ (className title : Text) (names : List Text) (lines : List Line),
      (∀ word, word ∈ names ↔ HasParameter a word) ∧ actionBody className title a.toValue = .ok lines ∧
      cls.body = names.map (parameterLine 2) ++ lines := by
  have hget : a.toValue.get "params" (.dict []) = .ok a.params := Value.get_record _ _ _
  obtain ⟨_, title, params, keys, read, lines, -, hparams, hkeys, hread, hlines, -, -, -, hbody⟩ := actionClass_eq_ok h
  cases hget.symm.trans hparams
  refine ⟨_, title, _, lines, fun word => ?_, hlines, hbody⟩
  rw [mem_cons, mem_of_made (Value.mapM_eq_ok_iff.mp hread)]
  refine or_congr_right ⟨fun h => ⟨keys, hkeys, h⟩, ?_⟩
  rintro ⟨keys', hkeys', h⟩
  cases hkeys.symm.trans hkeys'
  exact h

/-- **Words in the methods of an accepted script.** A word in braces of a text is set before the text is filled in,
other than in the prompt of a command; in the prompt of an action and the address that it fetches exactly if it is a
parameter of the action. -/
theorem words_set_iff {source : Text} {v : Value} {d : Definition} (h : Definition.ofValue source v = .ok d)
    (start : Text) :
    (∀ c ∈ d.commands, ∀ cls, commandClass start c.toValue = .ok cls →
      FillsWords cls.body c.response fun text _ => ¬ Unaided .command c.response text) ∧
    (∀ a ∈ d.actions, ∀ cls, actionClass start a.toValue = .ok cls →
      FillsWords cls.body a.response fun text word => Unaided .action a.response text → HasParameter a word) := by
  obtain ⟨_, _, commands, actions, -, -, -, -, hcommands, -, hactions, -⟩ := Script.ofValue_ok h
  have hcomplete := Script.complete_of_ofValue h
  constructor
  · intro c hc cls hcls
    obtain ⟨item, index, hitem⟩ := Script.exists_item hcommands hc
    obtain ⟨entries, -, -, -, hresponse, -⟩ := Script.command_ofValue_ok hitem
    obtain ⟨_, title, _, _, _, _, lines, -, -, -, hlines, rfl⟩ := commandClass_eq_ok hcls
    have hperforms := (commandBody_performs (Script.shows_command c) (hcomplete.commands c hc) hlines).append
      (List.forall_mem_singleton.mpr (idle_code 2 ("return True, \"" ++ title ++ " 执行成功\", True")))
    have hwords := hperforms.fillsWords (Script.declares_of_ofEntries? hresponse) []
    simpa only [List.map_nil, List.nil_append, List.not_mem_nil, imp_false] using hwords
  · intro a ha cls hcls
    obtain ⟨item, index, hitem⟩ := Script.exists_item hactions ha
    obtain ⟨entries, _, -, -, -, -, hresponse, -⟩ := Script.action_ofValue_ok hitem
    obtain ⟨className, title, names, lines, hnames, hlines, hbody⟩ := actionClass_body hcls
    have hperforms := actionBody_performs (Script.shows_action a) (hcomplete.actions a ha) hlines
    have hwords := hperforms.fillsWords (Script.declares_of_ofEntries? hresponse) names
    simpa only [hbody, hnames] using hwords

/-- A command that asks the language model what was typed, and an action that fetches a page of a city and a day, of
which the day is no parameter. -/
def askingScript : Value := .record [("plugin", .record [("name", str "p")]),
  ("commands", .list [.record [("name", str "ask"), ("match", str "/ask \x7bquestion\x7d"),
    ("llm_prompt", str "Answer: \x7bquestion\x7d")]]),
  ("actions", .list [.record [("name", str "sky"), ("when", str "w"), ("params", .record [("city", str "where")]),
    ("http_get", str "u/\x7bcity\x7d/\x7bday\x7d")]])]

theorem askingScript_words : ∃ d c a command action, Definition.ofValue "<string>" askingScript = .ok d ∧
    c ∈ d.commands ∧ commandClass "P" c.toValue = .ok command ∧ a ∈ d.actions ∧ actionClass "P" a.toValue = .ok action ∧
    ¬ SetBefore command.body "Answer: \x7bquestion\x7d" "question" ∧
    SetBefore action.body "u/\x7bcity\x7d/\x7bday\x7d" "city" ∧
    ¬ SetBefore action.body "u/\x7bcity\x7d/\x7bday\x7d" "day" := by
  have hd : Definition.ofValue "<string>" askingScript = .ok _ := rfl
  obtain ⟨hcommands, hactions⟩ := words_set_iff hd "P"
  have hcommand := hcommands _ List.mem_cons_self _ rfl
  have haction := hactions _ List.mem_cons_self _ rfl
  refine ⟨_, _, _, _, _, hd, List.mem_cons_self, rfl, List.mem_cons_self, rfl, ?_, ?_, ?_⟩
  · rw [hcommand.set_iff _ .prompt _ ⟨by decide, by decide⟩ (by decide), not_not]
    exact .prompt
  · rw [haction.set_iff _ (.address rfl rfl) _ ⟨by decide, by decide⟩ (by decide)]
    exact fun _ => .inr ⟨_, rfl, _, List.mem_singleton_self _, rfl⟩
  · rw [haction.set_iff _ (.address rfl rfl) _ ⟨by decide, by decide⟩ (by decide)]
    intro h
    rcases h (.address rfl rfl) with h | ⟨_, hkeys, key, hkey, hday⟩
    · exact absurd h (by decide)
    · cases hkeys
      cases List.mem_singleton.mp hkey
      exact absurd (Except.ok.inj hday) (by decide)

/-- The prompt of the command is filled in, and no line of the method sets the word. -/
theorem askingScript_question_unset : ∃ d c cls, Definition.ofValue "<string>" askingScript = .ok d ∧
    c ∈ d.commands ∧ commandClass "P" c.toValue = .ok cls ∧
    (∃ l ∈ cls.body, l.render = "            prompt_text = f\"\"\"Answer: \x7bquestion\x7d\"\"\"") ∧
    ∀ l ∈ cls.body, ¬ "question = " <+: l.statement.render := by
  refine ⟨_, _, _, rfl, List.mem_cons_self, rfl,
    ⟨.assign 3 "prompt_text" (.longTemplate "Answer: \x7bquestion\x7d"), ?_, by decide⟩, by decide⟩
  exact List.mem_cons_of_mem _ (List.mem_cons_of_mem _ List.mem_cons_self)

end PluginKit.Package
