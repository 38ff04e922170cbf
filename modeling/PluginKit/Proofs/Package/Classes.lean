import PluginKit.Package.Component
import PluginKit.Proofs.Value.Outcome

/-!
# The classes of components

What a class takes from the value of its component: its identifier, the name of the class, and whether its method
asks for the HTTP library, which it does exactly if the component fetches pages (`componentClass_ok`). The row of the
component takes its class name from the same identifier (`componentRow_ok`).
-/

namespace PluginKit.Package

open List
open Value (str bind_eq_ok map_eq_ok)

variable {component command action : Value} {className start : Text} {role : Role}

variable {c : ComponentClass}

/-! ### Lines of a method -/

def Line.asksHttp (l : Line) : Bool :=
  match l.statement with
  | .unlessHttp => true
  | _ => false

def Line.isField (l : Line) : Bool :=
  match l.statement with
  | .field _ _ _ => true
  | _ => false

/-- A line that needs nothing from others. -/
structure Line.Quiet (l : Line) : Prop where
  isField : l.isField = false
  asksHttp : l.asksHttp = false

structure Line.Inner (l : Line) : Prop extends l.Quiet where
  level : 2 ≤ l.level

section
variable {level : Nat}

theorem quiet_code (text : Text) : (Line.code level text).Quiet := ⟨rfl, rfl⟩

theorem quiet_assign (name : Text) (value : Expr) : (Line.assign level name value).Quiet := ⟨rfl, rfl⟩

@[simp]
theorem inner_code (h : 2 ≤ level) (text : Text) : (Line.code level text).Inner := ⟨quiet_code text, h⟩

@[simp]
theorem inner_assign (h : 2 ≤ level) (name : Text) (value : Expr) : (Line.assign level name value).Inner :=
  ⟨quiet_assign name value, h⟩

@[simp]
theorem inner_send (h : 2 ≤ level) (value : Expr) : (Line.send level value).Inner := ⟨⟨rfl, rfl⟩, h⟩

end

/-- The lines of a method, which asks for the HTTP library or not. -/
structure Method (asks : Prop) (lines : List Line) : Prop where
  level : ∀ l ∈ lines, 2 ≤ l.level
  isField : ∀ l ∈ lines, l.isField = false
  asksHttp : (∃ l ∈ lines, l.asksHttp = true) ↔ asks

namespace Method

variable {p q : Prop} {xs ys : List Line}

theorem of_inner (h : ∀ l ∈ xs, l.Inner) : Method False xs where
  level l hl := (h l hl).level
  isField l hl := (h l hl).isField
  asksHttp := by
    rw [iff_false]
    rintro ⟨l, hl, ha⟩
    rw [(h l hl).asksHttp] at ha
    cases ha

theorem append (hx : Method p xs) (hy : Method q ys) : Method (p ∨ q) (xs ++ ys) where
  level := forall_mem_append.mpr ⟨hx.level, hy.level⟩
  isField := forall_mem_append.mpr ⟨hx.isField, hy.isField⟩
  asksHttp := by
    rw [← hx.asksHttp, ← hy.asksHttp]
    simp only [mem_append, or_and_right, exists_or]

theorem congr (h : Method p xs) (hpq : p ↔ q) : Method q xs := by rwa [← propext hpq]

theorem append_inner (hx : Method p xs) (hy : ∀ l ∈ ys, l.Inner) : Method p (xs ++ ys) :=
  (hx.append (of_inner hy)).congr (by rw [or_false])

theorem inner_append (hx : ∀ l ∈ xs, l.Inner) (hy : Method p ys) : Method p (xs ++ ys) :=
  ((of_inner hx).append hy).congr (by rw [false_or])

theorem guarded (h : ∀ l ∈ xs, l.Inner) : Method True (⟨2, .unlessHttp⟩ :: xs) := by
  have hguard : Method True [⟨2, .unlessHttp⟩] :=
    ⟨forall_mem_singleton.mpr (le_refl 2), forall_mem_singleton.mpr rfl,
      iff_true_intro ⟨_, mem_singleton_self _, rfl⟩⟩
  exact hguard.append_inner h

end Method

/-! ### Bodies -/

theorem inner_replyLines (reply : Text) : ∀ l ∈ replyLines 2 reply, l.Inner := by
  have hsender : ∀ l ∈ (if (variablesIn reply).contains senderVariable then [senderLine 2] else []), l.Inner := by
    split
    · exact forall_mem_singleton.mpr (inner_assign (le_refl 2) _ _)
    · exact nofun
  have hcaptures : ∀ l ∈ ((variablesIn reply).filter (· != senderVariable)).map (captureLine 2), l.Inner := by
    intro l hl
    obtain ⟨name, -, rfl⟩ := mem_map.mp hl
    exact inner_assign (le_refl 2) _ _
  unfold replyLines
  refine forall_mem_append.mpr ⟨forall_mem_append.mpr ⟨hsender, hcaptures⟩, ?_⟩
  exact forall_mem_singleton.mpr (inner_send (le_refl 2) _)

theorem inner_fetchLines (url : Text) : ∀ l ∈ fetchLines url, l.Inner := by
  simp [fetchLines]

theorem inner_promptLines (holder prompt : Text) : ∀ l ∈ promptLines holder prompt, l.Inner := by
  simp [promptLines]

theorem inner_scriptLines (className : Text) (code : List Text) : ∀ l ∈ scriptLines className code, l.Inner := by
  simp [scriptLines, or_imp, forall_and]

theorem fetches_iff {type : Value} (h : component.get "type" (str "reply") = .ok type) :
    component.get "type" .null = .ok (str "http_get") ↔ type = str "http_get" := by
  have hreply : str "http_get" ≠ str "reply" := by
    intro he
    cases he
  constructor
  · intro hget
    have := Value.get_of_ne_default hget (by rintro ⟨⟩) (str "reply")
    rw [h] at this
    exact Except.ok.inj this
  · rintro rfl
    exact Value.get_of_ne_default h hreply .null

section
variable {type : Value} {lines : List Line}

theorem not_http_of_isStr {s : Text} (h : type.isStr s = true) (hs : s ≠ "http_get") :
    ¬ type.isStr "http_get" = true := by
  intro hhttp
  rw [Value.isStr_iff.mp h] at hhttp
  exact hs (beq_iff_eq.mp hhttp).symm

theorem method_of_not_http (h : ¬ type.isStr "http_get" = true) (hl : ∀ l ∈ lines, l.Inner) :
    Method (type = str "http_get") lines :=
  (Method.of_inner hl).congr (iff_of_false id fun he => h (Value.isStr_iff.mpr he))

theorem method_of_http (h : type.isStr "http_get" = true) (hl : Method True lines) :
    Method (type = str "http_get") lines :=
  hl.congr (iff_of_true trivial (Value.isStr_iff.mp h))

end

@[simp]
theorem inner_failureLine (text : Text) : (failureLine text).Inner := inner_send (by decide) _

/-- A command's method asks for the HTTP library exactly if the command fetches pages. -/
theorem commandBody_ok {lines : List Line}
    (h : commandBody className command = .ok lines) :
    Method (command.get "type" .null = .ok (str "http_get")) lines := by
  obtain ⟨type, htype, h⟩ := bind_eq_ok.mp h
  rw [propext (fetches_iff htype)]
  split at h
  · next hreply =>
    obtain ⟨reply, -, h⟩ := bind_eq_ok.mp h
    obtain ⟨text, -, h⟩ := bind_eq_ok.mp h
    cases h
    exact method_of_not_http (not_http_of_isStr hreply (by decide)) (inner_replyLines text)
  · split at h
    · next hpython =>
      obtain ⟨source, -, h⟩ := bind_eq_ok.mp h
      obtain ⟨code, -, h⟩ := bind_eq_ok.mp h
      cases h
      refine method_of_not_http (not_http_of_isStr hpython (by decide)) ?_
      exact forall_mem_append.mpr ⟨inner_scriptLines _ _, by simp⟩
    · split at h
      · next hhttp =>
        obtain ⟨request, -, h⟩ := bind_eq_ok.mp h
        obtain ⟨url, -, h⟩ := bind_eq_ok.mp h
        obtain ⟨template, -, h⟩ := bind_eq_ok.mp h
        obtain ⟨address, -, h⟩ := bind_eq_ok.mp h
        obtain ⟨reply, -, h⟩ := bind_eq_ok.mp h
        cases h
        have hcaptures : ∀ l ∈ (variablesIn address).map (captureLine 3), l.Inner := by
          intro l hl
          obtain ⟨name, -, rfl⟩ := mem_map.mp hl
          exact inner_assign (by decide) _ _
        refine method_of_http hhttp (Method.append_inner (Method.append_inner (Method.append_inner
          (Method.guarded ?_) hcaptures) (inner_fetchLines _)) ?_)
        · simp
        · simp
      · next hhttp =>
        split at h
        · obtain ⟨prompt, -, h⟩ := bind_eq_ok.mp h
          obtain ⟨text, -, h⟩ := bind_eq_ok.mp h
          cases h
          refine method_of_not_http hhttp (forall_mem_append.mpr ⟨inner_promptLines _ _, ?_⟩)
          simp
        · cases h
          exact method_of_not_http hhttp nofun

theorem actionBody_ok {name : Text} {lines : List Line}
    (h : actionBody className name action = .ok lines) :
    Method (action.get "type" .null = .ok (str "http_get")) lines := by
  obtain ⟨type, htype, h⟩ := bind_eq_ok.mp h
  rw [propext (fetches_iff htype)]
  split at h
  · next hreply =>
    obtain ⟨reply, -, h⟩ := bind_eq_ok.mp h
    obtain ⟨text, -, h⟩ := bind_eq_ok.mp h
    cases h
    refine method_of_not_http (not_http_of_isStr hreply (by decide)) ?_
    exact forall_mem_append.mpr
      ⟨inner_replyLines text, forall_mem_singleton.mpr (inner_code (by decide) _)⟩
  · split at h
    · next hpython =>
      obtain ⟨source, -, h⟩ := bind_eq_ok.mp h
      obtain ⟨code, -, h⟩ := bind_eq_ok.mp h
      cases h
      refine method_of_not_http (not_http_of_isStr hpython (by decide)) ?_
      refine forall_mem_append.mpr ⟨inner_scriptLines _ _, ?_⟩
      simp
    · split at h
      · next hhttp =>
        obtain ⟨request, -, h⟩ := bind_eq_ok.mp h
        obtain ⟨url, -, h⟩ := bind_eq_ok.mp h
        obtain ⟨template, -, h⟩ := bind_eq_ok.mp h
        obtain ⟨address, -, h⟩ := bind_eq_ok.mp h
        obtain ⟨reply, -, h⟩ := bind_eq_ok.mp h
        cases h
        refine method_of_http hhttp (Method.append_inner (Method.append_inner (Method.guarded ?_)
          (inner_fetchLines _)) ?_)
        · simp
        · simp
      · next hhttp =>
        split at h
        · obtain ⟨prompt, -, h⟩ := bind_eq_ok.mp h
          obtain ⟨text, -, h⟩ := bind_eq_ok.mp h
          cases h
          refine method_of_not_http hhttp (forall_mem_append.mpr ⟨inner_promptLines _ _, ?_⟩)
          simp
        · cases h
          exact method_of_not_http hhttp nofun

/-! ### Classes and rows -/

/-- The class is that of a component. -/
structure ComponentClass.Describes (start : Text) (role : Role) (component : Value) (c : ComponentClass) : Prop where
  name : component.item "internal_name" = .ok (str c.componentName)
  hasRole : c.role = role
  className : c.className = componentClassName start role c.componentName
  body : Method (component.get "type" .null = .ok (str "http_get")) c.body

theorem commandClass_eq_ok (h : commandClass start command = .ok c) :
    ∃ internalName title matchText description v pattern body,
      command.item "internal_name" = .ok (str internalName) ∧ command.item "pattern" = .ok v ∧
      v.display = .ok pattern ∧ commandBody (componentClassName start .command internalName) command = .ok body ∧
      c = ⟨componentClassName start .command internalName, title, internalName, description,
        .command matchText pattern, body ++ [.code 2 ("return True, \"" ++ title ++ " 执行成功\", True")]⟩ := by
  obtain ⟨value, hvalue, h⟩ := bind_eq_ok.mp h
  obtain ⟨internalName, htext, h⟩ := bind_eq_ok.mp h
  obtain ⟨name, -, h⟩ := bind_eq_ok.mp h
  obtain ⟨title, -, h⟩ := bind_eq_ok.mp h
  obtain ⟨matchValue, -, h⟩ := bind_eq_ok.mp h
  obtain ⟨matchText, -, h⟩ := bind_eq_ok.mp h
  obtain ⟨descriptionValue, -, h⟩ := bind_eq_ok.mp h
  obtain ⟨description, -, h⟩ := bind_eq_ok.mp h
  obtain ⟨v, hv, h⟩ := bind_eq_ok.mp h
  obtain ⟨pattern, hpattern, h⟩ := bind_eq_ok.mp h
  obtain ⟨body, hbody, h⟩ := bind_eq_ok.mp h
  cases h
  rw [Value.text_eq_ok.mp htext] at hvalue
  exact ⟨internalName, title, matchText, description, v, pattern, body, hvalue, hv, hpattern, hbody, rfl⟩

theorem commandClass_ok (h : commandClass start command = .ok c) : c.Describes start .command command := by
  obtain ⟨internalName, title, matchText, description, v, pattern, body, hname, -, -, hbody, rfl⟩ :=
    commandClass_eq_ok h
  refine ⟨hname, rfl, rfl, (commandBody_ok hbody).append_inner ?_⟩
  exact forall_mem_singleton.mpr (inner_code (by decide) _)

theorem actionClass_eq_ok (h : actionClass start action = .ok c) :
    ∃ internalName title params keys read body, action.item "internal_name" = .ok (str internalName) ∧
      action.get "params" (.dict []) = .ok params ∧ params.elements = .ok keys ∧ keys.mapM Value.display = .ok read ∧
      actionBody (componentClassName start .action internalName) title action = .ok body ∧
      c.className = componentClassName start .action internalName ∧ c.componentName = internalName ∧ c.role = .action ∧
      c.body = (Text.ofString "reason" :: read).map (parameterLine 2) ++ body := by
  obtain ⟨value, hvalue, h⟩ := bind_eq_ok.mp h
  obtain ⟨internalName, htext, h⟩ := bind_eq_ok.mp h
  obtain ⟨params, hparams, h⟩ := bind_eq_ok.mp h
  obtain ⟨entries, -, h⟩ := bind_eq_ok.mp h
  obtain ⟨name, -, h⟩ := bind_eq_ok.mp h
  obtain ⟨title, -, h⟩ := bind_eq_ok.mp h
  obtain ⟨descriptionValue, -, h⟩ := bind_eq_ok.mp h
  obtain ⟨description, -, h⟩ := bind_eq_ok.mp h
  obtain ⟨parameters, -, h⟩ := bind_eq_ok.mp h
  obtain ⟨triggerValue, -, h⟩ := bind_eq_ok.mp h
  obtain ⟨triggers, -, h⟩ := bind_eq_ok.mp h
  obtain ⟨typeValue, -, h⟩ := bind_eq_ok.mp h
  obtain ⟨types, -, h⟩ := bind_eq_ok.mp h
  obtain ⟨keys, hkeys, h⟩ := bind_eq_ok.mp h
  obtain ⟨read, hread, h⟩ := bind_eq_ok.mp h
  obtain ⟨body, hbody, h⟩ := bind_eq_ok.mp h
  cases h
  rw [Value.text_eq_ok.mp htext] at hvalue
  exact ⟨internalName, title, params, keys, read, body, hvalue, hparams, hkeys, hread, hbody, rfl, rfl, rfl, rfl⟩

theorem actionClass_ok (h : actionClass start action = .ok c) : c.Describes start .action action := by
  obtain ⟨internalName, title, params, keys, read, body, hname, -, -, -, hbody, hclass, hcomponent, hrole, hlines⟩ :=
    actionClass_eq_ok h
  subst hcomponent
  refine ⟨hname, hrole, hclass, ?_⟩
  rw [hlines]
  refine Method.inner_append (fun l hl => ?_) (actionBody_ok hbody)
  obtain ⟨key, -, rfl⟩ := mem_map.mp hl
  exact inner_assign (by decide) _ _

/-- **The class of a component** has its identifier and asks for the HTTP library exactly if it fetches pages. -/
theorem componentClass_ok (h : componentClass start role component = .ok c) : c.Describes start role component := by
  cases role with
  | command => exact commandClass_ok h
  | action => exact actionClass_ok h

theorem componentRow_ok {row : ComponentRow}
    (h : componentRow start role component = .ok row) :
    ∃ name, component.item "internal_name" = .ok (str name) ∧ row = ⟨role, componentClassName start role name⟩ := by
  obtain ⟨value, hvalue, h⟩ := bind_eq_ok.mp h
  obtain ⟨name, htext, h⟩ := bind_eq_ok.mp h
  cases h
  rw [Value.text_eq_ok.mp htext] at hvalue
  exact ⟨name, hvalue, rfl⟩

end PluginKit.Package
