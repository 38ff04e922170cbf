import Mathlib.Tactic
import PluginKit.Proofs.Value.Outcome
import PluginKit.Script.Normalize

/-!
# Scripts that are not refused

A script that is not acceptable should be refused with a reason. Not every such script is: a name or a match text
that is no text, triggers without a first one, and numbers too long to be shown end the reading by a fault of their
own. `Stuck` says which mappings these are and by which fault, in the order in which a script is read; all other
mappings are either accepted or refused (`normalize_stuck_iff`).

The reading is put together from steps, and `Settles` says of a step when it succeeds and by which faults other than
refusals it ends. It goes through `bind`, so that each step is looked at once.
-/

namespace PluginKit.Script

open Value (str bind_eq_ok bind_eq_error field?)

variable {v : Value} {part : Section} {entries : List (Value × Value)} {f : Fault}

def IsRefusal (f : Fault) : Prop := ∃ e, f = .script e

/-- A step succeeds under a condition, and ends by certain faults if not by a refusal. -/
structure Settles {α : Type} (x : Outcome α) (accepted : Prop) (stuck : Fault → Prop) : Prop where
  ok_iff : (∃ a, x = .ok a) ↔ accepted
  error_iff : ∀ f, ¬ IsRefusal f → (x = .error f ↔ stuck f)

namespace Settles

variable {α β : Type} {x : Outcome α} {p q : Prop} {s t : Fault → Prop}

theorem congr (h : Settles x p s) (hp : p ↔ q) (hs : ∀ f, s f ↔ t f) : Settles x q t where
  ok_iff := h.ok_iff.trans hp
  error_iff f hf := (h.error_iff f hf).trans (hs f)

theorem ok (a : α) : Settles (.ok a) True fun _ => False where
  ok_iff := iff_true_intro ⟨a, rfl⟩
  error_iff _ _ := iff_false_intro nofun

theorem refusal (e : Invalid) : Settles (.error (.script e) : Outcome α) False fun _ => False where
  ok_iff := iff_false_intro nofun
  error_iff f hf := by
    refine iff_false_intro fun h => hf ?_
    cases h
    exact ⟨e, rfl⟩

theorem bind {g : α → Outcome β} (hx : Settles x p s) (hg : ∀ a, x = .ok a → Settles (g a) q t) :
    Settles (x >>= g) (p ∧ q) fun f => s f ∨ p ∧ t f where
  ok_iff := by
    rw [← hx.ok_iff]
    constructor
    · rintro ⟨b, h⟩
      obtain ⟨a, ha, hb⟩ := bind_eq_ok.mp h
      exact ⟨⟨a, ha⟩, (hg a ha).ok_iff.mp ⟨b, hb⟩⟩
    · rintro ⟨⟨a, ha⟩, hq⟩
      obtain ⟨b, hb⟩ := (hg a ha).ok_iff.mpr hq
      exact ⟨b, bind_eq_ok.mpr ⟨a, ha, hb⟩⟩
  error_iff f hf := by
    rw [bind_eq_error, hx.error_iff f hf, ← hx.ok_iff]
    refine or_congr_right ⟨?_, ?_⟩
    · rintro ⟨a, ha, h⟩
      exact ⟨⟨a, ha⟩, ((hg a ha).error_iff f hf).mp h⟩
    · rintro ⟨⟨a, ha⟩, ht⟩
      exact ⟨a, ha, ((hg a ha).error_iff f hf).mpr ht⟩

theorem bind_bind {γ : Type} {y : α → Outcome β} {g : β → Outcome γ} (hxy : Settles (x >>= y) p s)
    (hg : ∀ b, Settles (g b) q t) : Settles (x >>= fun a => y a >>= g) (p ∧ q) fun f => s f ∨ p ∧ t f := by
  rw [← bind_assoc]
  exact hxy.bind fun b _ => hg b

theorem map {g : α → β} (hx : Settles x p s) : Settles (x.map g) p s := by
  have hbind : x.map g = x >>= fun a => .ok (g a) := by cases x <;> rfl
  rw [hbind]
  refine (hx.bind fun a _ => ok (g a)).congr (and_iff_left trivial) fun f => ?_
  rw [and_false, or_false]

end Settles

/-! ### Values that cannot be used -/

def unwritable : Fault := .badValue .unwritable

/-- The value can be shown: no number in it is too long. -/
def Shown (v : Value) : Prop := v.display?.isSome = true

def IsText (v : Value) : Prop := ∃ s, v = .str s

def nameFault : Value → Fault
  | .bytes _ => .misuse .bytesForText
  | v => .misuse (.notText v.kind)

def matchFault : Value → Fault
  | .bytes _ => .misuse .bytesStart
  | v => .noMember v.kind "startswith"

theorem settles_display (v : Value) : Settles v.display (Shown v) fun f => ¬ Shown v ∧ f = unwritable := by
  unfold Value.display Shown
  cases v.display? with
  | none => exact ⟨by simp, fun f _ => by simp [unwritable, eq_comm]⟩
  | some s => exact ⟨by simp, fun f _ => by simp⟩

theorem settles_of_isText {α : Type} {g : Value → Outcome α} {fault : Value → Fault} (hok : ∀ s, ∃ a, g (.str s) = .ok a)
    (herror : ∀ v, ¬ IsText v → g v = .error (fault v)) (v : Value) :
    Settles (g v) (IsText v) fun f => ¬ IsText v ∧ f = fault v := by
  by_cases h : IsText v
  · obtain ⟨s, rfl⟩ := h
    obtain ⟨a, ha⟩ := hok s
    rw [ha]
    exact (Settles.ok a).congr (by simp [IsText]) fun f => by simp [IsText]
  · rw [herror v h]
    exact ⟨by simp [h], fun f _ => by simp [h, eq_comm]⟩

theorem settles_text (v : Value) : Settles v.text (IsText v) fun f => ¬ IsText v ∧ f = nameFault v := by
  refine settles_of_isText (fun s => ⟨s, rfl⟩) (fun v h => ?_) v
  cases v with
  | str s => exact absurd ⟨s, rfl⟩ h
  | _ => rfl

theorem settles_asMatchText (v : Value) : Settles (asMatchText v) (IsText v) fun f => ¬ IsText v ∧ f = matchFault v := by
  refine settles_of_isText (fun s => ⟨s, rfl⟩) (fun v h => ?_) v
  cases v with
  | str s => exact absurd ⟨s, rfl⟩ h
  | _ => rfl

/-! ### The first trigger -/

def HasPlaces : Value → Prop
  | .list _ | .tuple _ | .str _ | .bytes _ | .dict _ => True
  | _ => False

/-- The value has no first element, and the fault of asking for it. -/
inductive NoFirst (v : Value) : Fault → Prop where
  | notIndexable (h : ¬ HasPlaces v.view) : NoFirst v (.misuse (.notIndexable v.view.kind))
  | noKey {entries : List (Value × Value)} (h : v.view = .dict entries) (hkey : Value.lookup? (.int 0) entries = none) :
    NoFirst v (.missingKey (.int 0))

/-- A sequence that counts as present is not empty, also if it holds itself. -/
theorem view_ne_nil (h : v.truthy = true) :
    v.view ≠ .list [] ∧ v.view ≠ .tuple [] ∧ v.view ≠ .str [] ∧ v.view ≠ .bytes [] := by
  cases v with
  | loop mark body =>
    cases body with
    | list items => cases items <;> simp_all [Value.truthy, Value.view, Value.close, Value.closeAll]
    | tuple items => cases items <;> simp_all [Value.truthy, Value.view, Value.close, Value.closeAll]
    | again m =>
      simp [Value.truthy] at h
    | loop m b =>
      simp only [Value.view, Value.close]
      split <;> simp
    | _ => simp_all [Value.truthy, Value.view, Value.close]
  | _ => simp_all [Value.truthy, Value.view]

theorem noFirst_iff : NoFirst v f ↔ ¬ HasPlaces v.view ∧ f = .misuse (.notIndexable v.view.kind) ∨
    ∃ entries, v.view = .dict entries ∧ Value.lookup? (.int 0) entries = none ∧ f = .missingKey (.int 0) := by
  constructor
  · rintro (h | ⟨hv, hkey⟩)
    · exact .inl ⟨h, rfl⟩
    · exact .inr ⟨_, hv, hkey, rfl⟩
  · rintro (⟨h, rfl⟩ | ⟨entries, hv, hkey, rfl⟩)
    · exact .notIndexable h
    · exact .noKey hv hkey

theorem settles_first (h : v.truthy = true) : Settles (v.element 0) (∃ x, v.element 0 = .ok x) (NoFirst v) where
  ok_iff := Iff.rfl
  error_iff f _ := by
    obtain ⟨hlist, htuple, hstr, hbytes⟩ := view_ne_nil h
    rw [noFirst_iff]
    unfold Value.element
    cases hv : v.view with
    | list items =>
      cases items with
      | nil => exact absurd hv hlist
      | cons x items => simp [HasPlaces]
    | tuple items =>
      cases items with
      | nil => exact absurd hv htuple
      | cons x items => simp [HasPlaces]
    | str s =>
      cases s with
      | nil => exact absurd hv hstr
      | cons c s => simp [HasPlaces]
    | bytes b =>
      cases b with
      | nil => exact absurd hv hbytes
      | cons n b => simp [HasPlaces]
    | dict entries => cases hkey : Value.lookup? (.int 0) entries <;> simp [HasPlaces, hkey, eq_comm]
    | _ => simp [HasPlaces, eq_comm]

/-! ### Components -/

/-- The text that a component declares as its response, in the first of the three forms that are texts. -/
def declaredText? (entries : List (Value × Value)) : Option Value :=
  (field? "reply" entries).or ((field? "python" entries).or (field? "llm_prompt" entries))

/-- The component declares a response, and its text can be shown. -/
def Responds (entries : List (Value × Value)) : Prop :=
  (∃ v, declaredText? entries = some v ∧ Shown v) ∨
    declaredText? entries = none ∧ (field? "http_get" entries).isSome = true

/-- The response is the declared text in one of its forms, or else the page that is fetched. -/
theorem ofEntries?_eq (entries : List (Value × Value)) :
    (∃ (v : Value) (form : Text → Response), declaredText? entries = some v ∧
      Response.ofEntries? entries = v.display.map fun text => some (form text)) ∨
    declaredText? entries = none ∧ ∃ r, Response.ofEntries? entries = .ok r ∧
      r.isSome = (field? "http_get" entries).isSome := by
  unfold Response.ofEntries? declaredText?
  cases field? "reply" entries with
  | some v => exact .inl ⟨v, .reply, rfl, rfl⟩
  | none =>
    cases field? "python" entries with
    | some v => exact .inl ⟨v, .python, rfl, rfl⟩
    | none =>
      cases field? "llm_prompt" entries with
      | some v => exact .inl ⟨v, fun text => .prompt text _, rfl, rfl⟩
      | none => exact .inr ⟨rfl, _, rfl, by rw [Option.isSome_map]⟩

theorem settles_response {α : Type} (entries : List (Value × Value)) (g : Response → α) (e : Invalid) :
    Settles (do let some r ← Response.ofEntries? entries | .error (.script e)
                return g r)
      (Responds entries) fun f => (∃ v, declaredText? entries = some v ∧ ¬ Shown v) ∧ f = unwritable := by
  rcases ofEntries?_eq entries with ⟨v, form, hv, hread⟩ | ⟨hv, r, hread, hr⟩
  · rw [hread]
    refine ((settles_display v).map.bind (q := True) (t := fun _ => False) fun r hr => ?_).congr ?_ fun f => ?_
    · obtain ⟨text, -, rfl⟩ := Value.map_eq_ok.mp hr
      exact .ok (g (form text))
    · simp [Responds, hv]
    · simp [hv]
  · rw [hread]
    cases r with
    | none => exact (Settles.refusal e).congr (by simp [Responds, hv, ← hr]) fun f => by simp [hv]
    | some r => exact (Settles.ok (g r)).congr (by simp [Responds, hv, ← hr]) fun f => by simp [hv]

def triggerKey : Section → Text
  | .commands => "match"
  | .actions => "when"

def Usable (name trigger : Value) : Section → Prop
  | .commands => IsText trigger ∧ IsText name
  | .actions => IsText name ∧ ∃ x, (triggerList trigger).element 0 = .ok x ∧ Shown x

/-- The name or the trigger of a component cannot be used, and the fault by which this shows. -/
inductive Unusable (name trigger : Value) : Section → Fault → Prop where
  | matchKind (h : ¬ IsText trigger) : Unusable name trigger .commands (matchFault trigger)
  | commandName (htrigger : IsText trigger) (h : ¬ IsText name) : Unusable name trigger .commands (nameFault name)
  | actionName (h : ¬ IsText name) : Unusable name trigger .actions (nameFault name)
  | noFirst {f : Fault} (hname : IsText name) (h : NoFirst (triggerList trigger) f) : Unusable name trigger .actions f
  | unshownFirst {x : Value} (hname : IsText name) (hx : (triggerList trigger).element 0 = .ok x) (h : ¬ Shown x) :
    Unusable name trigger .actions unwritable

/-- The value is a component that is accepted. -/
def Accepted (part : Section) (v : Value) : Prop :=
  ∃ entries name trigger, v.view = .dict entries ∧ presentField? "name" entries = some name ∧
    presentField? (triggerKey part) entries = some trigger ∧ Usable name trigger part ∧ Responds entries

/-- The value is a component that is neither accepted nor refused. -/
inductive StuckComponent (part : Section) (v : Value) : Fault → Prop where
  | unshownName {entries : List (Value × Value)} {name : Value} (hv : v.view = .dict entries)
    (hname : presentField? "name" entries = some name) (htrigger : presentField? (triggerKey part) entries = none)
    (h : ¬ Shown name) : StuckComponent part v unwritable
  | unusable {entries : List (Value × Value)} {name trigger : Value} {f : Fault} (hv : v.view = .dict entries)
    (hname : presentField? "name" entries = some name)
    (htrigger : presentField? (triggerKey part) entries = some trigger) (h : Unusable name trigger part f) :
    StuckComponent part v f
  | unshownResponse {entries : List (Value × Value)} {name trigger response : Value} (hv : v.view = .dict entries)
    (hname : presentField? "name" entries = some name)
    (htrigger : presentField? (triggerKey part) entries = some trigger) (husable : Usable name trigger part)
    (hresponse : declaredText? entries = some response) (h : ¬ Shown response) : StuckComponent part v unwritable

theorem stuckComponent_iff : StuckComponent part v f ↔ ∃ entries name, v.view = .dict entries ∧
    presentField? "name" entries = some name ∧
    match presentField? (triggerKey part) entries with
    | none => ¬ Shown name ∧ f = unwritable
    | some trigger => Unusable name trigger part f ∨
        Usable name trigger part ∧ (∃ r, declaredText? entries = some r ∧ ¬ Shown r) ∧ f = unwritable := by
  constructor
  · rintro (⟨hv, hn, ht, h⟩ | ⟨hv, hn, ht, h⟩ | ⟨hv, hn, ht, husable, hr, h⟩)
    · exact ⟨_, _, hv, hn, by rw [ht]; exact ⟨h, rfl⟩⟩
    · exact ⟨_, _, hv, hn, by rw [ht]; exact .inl h⟩
    · exact ⟨_, _, hv, hn, by rw [ht]; exact .inr ⟨husable, ⟨_, hr, h⟩, rfl⟩⟩
  · rintro ⟨entries, name, hv, hn, h⟩
    cases ht : presentField? (triggerKey part) entries with
    | none =>
      rw [ht] at h
      obtain ⟨h, rfl⟩ := h
      exact .unshownName hv hn ht h
    | some trigger =>
      rw [ht] at h
      rcases h with h | ⟨husable, ⟨r, hr, h⟩, rfl⟩
      · exact .unusable hv hn ht h
      · exact .unshownResponse hv hn ht husable hr h

/-- Reading a component: what comes before its name and its trigger are used is the same for both sections. -/
theorem settles_component {α : Type} {x : Outcome α}
    (hmapping : (∀ entries, v.view ≠ .dict entries) → ∃ e, x = .error (.script e))
    (hname : ∀ entries, v.view = .dict entries → presentField? "name" entries = none → ∃ e, x = .error (.script e))
    (htrigger : ∀ entries name, v.view = .dict entries → presentField? "name" entries = some name →
      presentField? (triggerKey part) entries = none →
        ∃ e : Text → Invalid, x = name.display >>= fun s => .error (.script (e s)))
    (hrest : ∀ entries name trigger, v.view = .dict entries → presentField? "name" entries = some name →
      presentField? (triggerKey part) entries = some trigger →
      Settles x (Usable name trigger part ∧ Responds entries) fun f => Unusable name trigger part f ∨
        Usable name trigger part ∧ (∃ r, declaredText? entries = some r ∧ ¬ Shown r) ∧ f = unwritable) :
    Settles x (Accepted part v) (StuckComponent part v) := by
  by_cases hv : ∃ entries, v.view = .dict entries
  · obtain ⟨entries, hv⟩ := hv
    cases hn : presentField? "name" entries with
    | none =>
      obtain ⟨e, rfl⟩ := hname entries hv hn
      exact (Settles.refusal e).congr (by simp [Accepted, hv, hn]) fun f => by simp [stuckComponent_iff, hv, hn]
    | some name =>
      cases ht : presentField? (triggerKey part) entries with
      | none =>
        obtain ⟨e, rfl⟩ := htrigger entries name hv hn ht
        exact ((settles_display name).bind fun _ _ => Settles.refusal _).congr (by simp [Accepted, hv, ht])
          fun f => by simp [stuckComponent_iff, hv, hn, ht]
      | some trigger =>
        exact (hrest entries name trigger hv hn ht).congr (by simp [Accepted, hv, hn, ht])
          fun f => by simp [stuckComponent_iff, hv, hn, ht]
  · have hnot : ∀ entries, v.view ≠ .dict entries := fun entries h => hv ⟨entries, h⟩
    obtain ⟨e, rfl⟩ := hmapping hnot
    exact (Settles.refusal e).congr (by simp [Accepted, hnot]) fun f => by simp [stuckComponent_iff, hnot]

theorem settles_command (source : Text) (index : Nat) (v : Value) :
    Settles (Command.ofValue source index v) (Accepted .commands v) (StuckComponent .commands v) := by
  refine settles_component (fun hv => ?_) (fun entries hv hn => ?_) (fun entries name hv hn ht => ?_)
    fun entries name text hv hn ht => ?_
  · unfold Command.ofValue
    simp only
    exact ⟨_, rfl⟩
  · unfold Command.ofValue
    simp only [hv, hn]
    exact ⟨_, rfl⟩
  · unfold Command.ofValue
    simp only [triggerKey] at ht
    simp only [hv, hn, ht]
    exact ⟨_, rfl⟩
  · unfold Command.ofValue
    simp only [triggerKey] at ht
    simp only [hv, hn, ht]
    refine ((settles_asMatchText text).bind fun _ _ => (settles_text name).bind fun _ _ =>
      settles_response entries _ _).congr and_assoc.symm fun f => ?_
    constructor
    · rintro (⟨h, rfl⟩ | ⟨htext, ⟨h, rfl⟩ | ⟨hname, h⟩⟩)
      · exact .inl (.matchKind h)
      · exact .inl (.commandName htext h)
      · exact .inr ⟨⟨htext, hname⟩, h⟩
    · rintro ((h | ⟨htext, h⟩) | ⟨⟨htext, hname⟩, h⟩)
      · exact .inl ⟨h, rfl⟩
      · exact .inr ⟨htext, .inl ⟨h, rfl⟩⟩
      · exact .inr ⟨htext, .inr ⟨hname, h⟩⟩

theorem settles_action (source : Text) (index : Nat) (v : Value) :
    Settles (Action.ofValue source index v) (Accepted .actions v) (StuckComponent .actions v) := by
  refine settles_component (fun hv => ?_) (fun entries hv hn => ?_) (fun entries name hv hn ht => ?_)
    fun entries name trigger hv hn ht => ?_
  · unfold Action.ofValue
    simp only
    exact ⟨_, rfl⟩
  · unfold Action.ofValue
    simp only [hv, hn]
    exact ⟨_, rfl⟩
  · unfold Action.ofValue
    simp only [triggerKey] at ht
    simp only [hv, hn, ht]
    exact ⟨_, rfl⟩
  · unfold Action.ofValue
    simp only [triggerKey] at ht
    simp only [hv, hn, ht]
    have htruthy : (triggerList trigger).truthy = true := by
      have h := (Option.filter_eq_some_iff.mp ht).2
      unfold triggerList
      split
      · rfl
      · exact h
    have hshown : ∀ x, (triggerList trigger).element 0 = .ok x → Settles x.display
        (∃ x, (triggerList trigger).element 0 = .ok x ∧ Shown x)
        fun f => (∃ x, (triggerList trigger).element 0 = .ok x ∧ ¬ Shown x) ∧ f = unwritable := by
      intro x hx
      refine (settles_display x).congr ?_ fun f => ?_
      · simp [hx]
      · simp [hx]
    refine ((settles_text name).bind fun _ _ => (settles_first htruthy).bind fun x hx => (hshown x hx).bind fun _ _ =>
      settles_response entries _ _).congr ?_ fun f => ?_
    · constructor
      · rintro ⟨hname, -, hfirst, hr⟩
        exact ⟨⟨hname, hfirst⟩, hr⟩
      · rintro ⟨⟨hname, x, hx, h⟩, hr⟩
        exact ⟨hname, ⟨x, hx⟩, ⟨x, hx, h⟩, hr⟩
    · constructor
      · rintro (⟨h, rfl⟩ | ⟨hname, h | ⟨-, ⟨⟨x, hx, h⟩, rfl⟩ | ⟨hfirst, h⟩⟩⟩)
        · exact .inl (.actionName h)
        · exact .inl (.noFirst hname h)
        · exact .inl (.unshownFirst hname hx h)
        · exact .inr ⟨⟨hname, hfirst⟩, h⟩
      · rintro ((_ | _ | h | ⟨hname, h⟩ | ⟨hname, hx, h⟩) | ⟨⟨hname, x, hx, hfirst⟩, h⟩)
        · exact .inl ⟨h, rfl⟩
        · exact .inr ⟨hname, .inl h⟩
        · exact .inr ⟨hname, .inr ⟨⟨_, hx⟩, .inl ⟨⟨_, hx, h⟩, rfl⟩⟩⟩
        · exact .inr ⟨hname, .inr ⟨⟨x, hx⟩, .inr ⟨⟨x, hx, hfirst⟩, h⟩⟩⟩

/-! ### Sections -/

/-- Components are read one after another, and the first that is not accepted ends the reading. -/
theorem settles_readItems {α : Type} {read : Nat → Value → Outcome α} {accepted : Value → Prop}
    {stuck : Value → Fault → Prop} (h : ∀ index v, Settles (read index v) (accepted v) (stuck v)) (index : Nat)
    (items : List Value) : Settles (readItems read index items) (∀ v ∈ items, accepted v)
      fun f => ∃ before v after, items = before ++ v :: after ∧ (∀ u ∈ before, accepted u) ∧ stuck v f := by
  induction items generalizing index with
  | nil => exact (Settles.ok []).congr (by simp) fun f => by simp
  | cons v items ih =>
    refine ((h index v).bind fun _ _ => (ih (index + 1)).map).congr List.forall_mem_cons.symm fun f => ?_
    constructor
    · rintro (hf | ⟨hv, before, u, after, rfl, hbefore, hf⟩)
      · exact ⟨[], v, items, rfl, nofun, hf⟩
      · exact ⟨v :: before, u, after, rfl, List.forall_mem_cons.mpr ⟨hv, hbefore⟩, hf⟩
    · rintro ⟨before, u, after, hitems, hbefore, hf⟩
      cases before with
      | nil =>
        cases hitems
        exact .inl hf
      | cons w before =>
        cases hitems
        obtain ⟨hv, hbefore⟩ := List.forall_mem_cons.mp hbefore
        exact .inr ⟨hv, before, u, after, rfl, hbefore, hf⟩

/-- The components of a section; a section that is not there has none. -/
inductive IsSection (part : Section) (entries : List (Value × Value)) : List Value → Prop where
  | missing (h : field? part.name entries = none) : IsSection part entries []
  | list {v : Value} {items : List Value} (h : field? part.name entries = some v) (hv : v.view = .list items) :
    IsSection part entries items

theorem isSection_iff {items : List Value} : IsSection part entries items ↔
    field? part.name entries = none ∧ items = [] ∨
      ∃ v, field? part.name entries = some v ∧ v.view = .list items := by
  constructor
  · rintro (h | ⟨h, hv⟩)
    · exact .inl ⟨h, rfl⟩
    · exact .inr ⟨_, h, hv⟩
  · rintro (⟨h, rfl⟩ | ⟨v, h, hv⟩)
    · exact .missing h
    · exact .list h hv

theorem sectionItems_eq (source : Text) (part : Section) (entries : List (Value × Value)) :
    (∃ items, sectionItems source part entries = .ok items ∧ ∀ l, IsSection part entries l ↔ l = items) ∨
      (∃ e, sectionItems source part entries = .error (.script e)) ∧ ∀ l, ¬ IsSection part entries l := by
  unfold sectionItems
  cases hfield : field? part.name entries with
  | none => exact .inl ⟨[], rfl, fun l => by simp [isSection_iff, hfield]⟩
  | some v =>
    by_cases hv : ∃ items, v.view = .list items
    · obtain ⟨items, hv⟩ := hv
      simp only [Option.map_some, hv]
      exact .inl ⟨items, rfl, fun l => by simp [isSection_iff, hfield, hv, eq_comm]⟩
    · have hnot : ∀ items, v.view ≠ .list items := fun items h => hv ⟨items, h⟩
      refine .inr ⟨?_, fun l => by simp [isSection_iff, hfield, hnot]⟩
      rw [Option.map_some]
      split
      · next h => cases h
      · next items h => exact absurd (Option.some.inj h) (hnot items)
      · exact ⟨_, rfl⟩

def AllAccepted (part : Section) (entries : List (Value × Value)) : Prop :=
  ∃ items, IsSection part entries items ∧ ∀ v ∈ items, Accepted part v

/-- The first component of a section that is not accepted is not refused either. -/
def StuckSection (part : Section) (entries : List (Value × Value)) (f : Fault) : Prop :=
  ∃ before v after, IsSection part entries (before ++ v :: after) ∧ (∀ u ∈ before, Accepted part u) ∧
    StuckComponent part v f

theorem settles_section {α : Type} {read : Nat → Value → Outcome α}
    (h : ∀ index v, Settles (read index v) (Accepted part v) (StuckComponent part v)) (source : Text)
    (entries : List (Value × Value)) : Settles (sectionItems source part entries >>= readItems read 0)
      (AllAccepted part entries) (StuckSection part entries) := by
  rcases sectionItems_eq source part entries with ⟨items, hitems, hsection⟩ | ⟨⟨e, he⟩, hsection⟩
  · rw [hitems]
    refine (settles_readItems h 0 items).congr (by simp [AllAccepted, hsection]) fun f => ?_
    simp only [StuckSection, hsection, eq_comm]
  · rw [he]
    exact (Settles.refusal e).congr (by simp [AllAccepted, hsection]) fun f => by simp [StuckSection, hsection]

/-! ### Whole scripts -/

/-- The texts that the plugin part of a script may give beside its name. -/
def pluginTexts : List Text := ["version", "author", "description"]

/-- The plugin part has a name, and it and the other texts can be shown. -/
def PluginAccepted (entries : List (Value × Value)) : Prop :=
  ∃ name, presentField? "name" entries = some name ∧ Shown name ∧
    ∀ key ∈ pluginTexts, ∀ v, field? key entries = some v → Shown v

/-- The plugin part has a name, but a text of it cannot be shown. -/
def PluginStuck (entries : List (Value × Value)) : Prop :=
  ∃ name, presentField? "name" entries = some name ∧
    (¬ Shown name ∨ ∃ key ∈ pluginTexts, ∃ v, field? key entries = some v ∧ ¬ Shown v)

theorem shown_str (s : Text) : Shown (.str s) := rfl

/-- Of two steps that can end by the same fault the first does, or the second does once the first is done. -/
theorem not_and_or_and_and_iff {p q r : Prop} : ¬ p ∧ r ∨ p ∧ q ∧ r ↔ (¬ p ∨ q) ∧ r := by
  by_cases hp : p <;> simp [hp]

theorem settles_plugin (source : Text) (entries : List (Value × Value)) :
    Settles (PluginInfo.ofEntries source entries) (PluginAccepted entries)
      fun f => PluginStuck entries ∧ f = unwritable := by
  unfold PluginInfo.ofEntries
  cases hname : presentField? "name" entries with
  | none =>
    exact (Settles.refusal _).congr (by simp [PluginAccepted, hname]) fun f => by simp [PluginStuck, hname]
  | some name =>
    have hfield : ∀ key default : Text, Settles ((field? key entries).getD (str default)).display
        (∀ v, field? key entries = some v → Shown v)
        fun f => (∃ v, field? key entries = some v ∧ ¬ Shown v) ∧ f = unwritable := by
      intro key default
      refine (settles_display _).congr ?_ fun f => ?_
      · cases field? key entries with
        | none => simp [shown_str]
        | some v => simp
      · cases field? key entries with
        | none => simp [shown_str]
        | some v => simp
    refine ((settles_display name).bind fun _ _ => (hfield "version" _).bind fun _ _ =>
      (hfield "author" _).bind fun _ _ => (hfield "description" _).bind fun _ _ => Settles.ok _).congr ?_ fun f => ?_
    · simp [PluginAccepted, hname, pluginTexts]
    · have hnot : ∀ key, (∃ v, field? key entries = some v ∧ ¬ Shown v) ↔
          ¬ ∀ v, field? key entries = some v → Shown v := by
        intro key
        push Not
        rfl
      simp only [PluginStuck, hname, hnot, pluginTexts, Option.some.injEq, exists_eq_left', List.exists_mem_cons_iff,
        List.not_mem_nil, false_and, exists_false, or_false, and_false, not_and_or_and_and_iff]

/-- The entries are those of a script that is neither accepted nor refused: something in it cannot be used, all that
is read before is accepted, and this is the fault by which the reading ends. -/
inductive Stuck (entries : List (Value × Value)) : Fault → Prop where
  | plugin {plugin : List (Value × Value)} (hplugin : ((field? "plugin" entries).getD (.dict [])).view = .dict plugin)
    (h : PluginStuck plugin) : Stuck entries unwritable
  | command {plugin : List (Value × Value)} {f : Fault}
    (hplugin : ((field? "plugin" entries).getD (.dict [])).view = .dict plugin) (haccepted : PluginAccepted plugin)
    (h : StuckSection .commands entries f) : Stuck entries f
  | action {plugin : List (Value × Value)} {f : Fault}
    (hplugin : ((field? "plugin" entries).getD (.dict [])).view = .dict plugin) (haccepted : PluginAccepted plugin)
    (hcommands : AllAccepted .commands entries) (h : StuckSection .actions entries f) : Stuck entries f

theorem settles_normalize (hv : v.view = .dict entries) (source : Text) :
    Settles (normalize source v)
      ((∃ plugin, ((field? "plugin" entries).getD (.dict [])).view = .dict plugin ∧ PluginAccepted plugin) ∧
        AllAccepted .commands entries ∧ AllAccepted .actions entries)
      (Stuck entries) := by
  have hentries : v.entriesFor "get" = .ok entries := by rw [Value.entriesFor, hv]
  refine Settles.map ?_
  unfold Definition.ofValue
  rw [hentries, Value.ok_bind]
  by_cases hplugin : ∃ plugin, ((field? "plugin" entries).getD (.dict [])).view = .dict plugin
  · obtain ⟨plugin, hplugin⟩ := hplugin
    simp only [hplugin]
    refine ((settles_plugin source plugin).bind fun _ _ =>
      (settles_section (settles_command source) source entries).bind_bind fun _ =>
        (settles_section (settles_action source) source entries).bind_bind fun _ => Settles.ok _).congr ?_ fun f => ?_
    · simp
    · constructor
      · rintro (⟨h, rfl⟩ | ⟨hp, h | ⟨hc, h | ⟨-, h⟩⟩⟩)
        · exact .plugin hplugin h
        · exact .command hplugin hp h
        · exact .action hplugin hp hc h
        · exact h.elim
      · rintro (⟨hp, h⟩ | ⟨hp, ha, h⟩ | ⟨hp, ha, hc, h⟩)
        · cases hplugin.symm.trans hp
          exact .inl ⟨h, rfl⟩
        · cases hplugin.symm.trans hp
          exact .inr ⟨ha, .inl h⟩
        · cases hplugin.symm.trans hp
          exact .inr ⟨ha, .inr ⟨hc, .inl h⟩⟩
  · have hnot : ∀ plugin, ((field? "plugin" entries).getD (.dict [])).view ≠ .dict plugin :=
      fun plugin h => hplugin ⟨plugin, h⟩
    simp only
    refine (Settles.refusal _).congr (iff_of_false id ?_) fun f => iff_of_false id ?_
    · rintro ⟨⟨plugin, h, -⟩, -⟩
      exact hnot plugin h
    · rintro (⟨h, -⟩ | ⟨h, -, -⟩ | ⟨h, -, -, -⟩) <;> exact hnot _ h

/-- The faults that end the reading of a script without refusing it: a value of a wrong kind, one without the
operation that is asked of it, a mapping in place of a list, or a value that cannot be shown. -/
inductive IsTrouble : Fault → Prop where
  | misuse (m : Misuse) : IsTrouble (.misuse m)
  | noMember (kind : Kind) : IsTrouble (.noMember kind "startswith")
  | missingKey : IsTrouble (.missingKey (.int 0))
  | unwritable : IsTrouble unwritable

theorem IsTrouble.not_isRefusal (h : IsTrouble f) : ¬ IsRefusal f := by
  rintro ⟨e, rfl⟩
  cases h

theorem Unusable.isTrouble {name trigger : Value} (h : Unusable name trigger part f) : IsTrouble f := by
  have hname : IsTrouble (nameFault name) := by cases name <;> exact .misuse _
  cases h with
  | matchKind h =>
    cases trigger with
    | bytes b => exact .misuse _
    | _ => exact .noMember _
  | commandName _ _ => exact hname
  | actionName _ => exact hname
  | noFirst _ h =>
    cases h with
    | notIndexable _ => exact .misuse _
    | noKey _ _ => exact .missingKey
  | unshownFirst _ _ _ => exact .unwritable

theorem StuckSection.isTrouble (h : StuckSection part entries f) : IsTrouble f := by
  obtain ⟨before, v, after, -, -, h⟩ := h
  cases h with
  | unshownName _ _ _ _ => exact .unwritable
  | unusable _ _ _ h => exact h.isTrouble
  | unshownResponse _ _ _ _ _ _ => exact .unwritable

theorem Stuck.isTrouble (h : Stuck entries f) : IsTrouble f := by
  cases h with
  | plugin _ _ => exact .unwritable
  | command _ _ h => exact h.isTrouble
  | action _ _ _ h => exact h.isTrouble

/-- **When a script is accepted or refused**: exactly if nothing in it gets stuck. What gets stuck ends the reading by a
fault that is no refusal. -/
theorem normalize_stuck_iff {v : Value} {entries : List (Value × Value)} (hv : v.view = .dict entries) (source : Text) :
    (((∃ d, normalize source v = .ok d) ∨ ∃ e, normalize source v = .error (.script e)) ↔ ∀ f, ¬ Stuck entries f) ∧
      ∀ f, Stuck entries f → normalize source v = .error f ∧ IsTrouble f := by
  have hsettles := settles_normalize hv source
  have hstuck : ∀ f, Stuck entries f → normalize source v = .error f :=
    fun f h => (hsettles.error_iff f h.isTrouble.not_isRefusal).mpr h
  refine ⟨⟨?_, ?_⟩, fun f h => ⟨hstuck f h, h.isTrouble⟩⟩
  · rintro (⟨d, hd⟩ | ⟨e, he⟩) f h
    · cases hd.symm.trans (hstuck f h)
    · cases he.symm.trans (hstuck _ h)
      exact h.isTrouble.not_isRefusal ⟨e, rfl⟩
  · intro h
    cases hread : normalize source v with
    | ok d => exact .inl ⟨d, rfl⟩
    | error f =>
      by_cases hf : IsRefusal f
      · obtain ⟨e, rfl⟩ := hf
        exact .inr ⟨e, rfl⟩
      · exact absurd ((hsettles.error_iff f hf).mp hread) (h f)

def scriptWith (part : String) (component : Value) : Value :=
  .record [("plugin", .record [("name", str "p")]), (part, .list [component])]

def numberedCommand : Value := .record [("name", .int 5), ("match", str "/a"), ("reply", str "x")]

theorem numberedCommand_stuck : ∃ entries, (scriptWith "commands" numberedCommand).view = .dict entries ∧
    Stuck entries (.misuse (.notText .int)) ∧
    normalize "<data>" (scriptWith "commands" numberedCommand) = .error (.misuse (.notText .int)) := by
  have hplugin : PluginAccepted [(str "name", str "p")] := by
    refine ⟨str "p", rfl, shown_str _, fun key hkey v hv => ?_⟩
    simp only [pluginTexts, List.mem_cons, List.not_mem_nil, or_false] at hkey
    rcases hkey with rfl | rfl | rfl <;> cases hv
  have hcommand : StuckComponent .commands numberedCommand (nameFault (.int 5)) :=
    .unusable rfl rfl rfl (.commandName ⟨"/a", rfl⟩ nofun)
  have hstuck : Stuck [(str "plugin", .record [("name", str "p")]), (str "commands", .list [numberedCommand])]
      (.misuse (.notText .int)) :=
    .command rfl hplugin ⟨[], numberedCommand, [], .list rfl rfl, nofun, hcommand⟩
  exact ⟨_, rfl, hstuck, ((normalize_stuck_iff rfl "<data>").2 _ hstuck).1⟩

/-- A number as the name of a command, a number as its match text, and a mapping as the triggers of an action are not
refused. -/
theorem normalize_not_refused :
    normalize "<data>" (scriptWith "commands" numberedCommand) = .error (.misuse (.notText .int)) ∧
      normalize "<data>" (scriptWith "commands" (.record [("name", str "a"), ("match", .int 5), ("reply", str "x")]))
        = .error (.noMember .int "startswith") ∧
      normalize "<data>" (scriptWith "actions" (.record [("name", str "a"), ("when", .record [("x", str "y")]),
        ("reply", str "x")])) = .error (.missingKey (.int 0)) :=
  ⟨rfl, rfl, rfl⟩

end PluginKit.Script
