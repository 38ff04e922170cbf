import PluginKit.Bridge.Loader
import PluginKit.Proofs.Text.Encodable
import PluginKit.Proofs.Value.Entries
import PluginKit.Proofs.Value.Outcome

/-!
# Classes of registered components

The bot gets a class for each component that was found in a plugin file. The class shows the name of its component, and
not every text can be shown so: it must have a UTF-8 form and no zero character (`Nameable`). If all names can be shown,
there is one class for each component, commands first, and if one cannot, there is none for any (`classes_ofText`).
-/

namespace PluginKit.Bridge

open List
open Value (str)

variable {name : Text} {f : Fault} {rs items : List Registration}

/-! ### Names that can be shown -/

/-- A name that a class can show. -/
def Nameable (name : Text) : Prop := Encodable name ∧ .scalar '\x00' ∉ name

inductive NameFault : Fault → Prop where
  | encode (e : Text.EncodeError) : NameFault (.encode e)
  | zero : NameFault (.badValue (.other "type name must not contain null characters"))

theorem toNat_eq_zero_iff (c : CodePoint) : c.toNat = 0 ↔ c = .scalar '\x00' := by
  constructor
  · intro h
    rw [← CodePoint.ofNat_toNat c, h]
    rfl
  · rintro rfl
    rfl

theorem any_zero_iff (name : Text) : (name.any fun c => c.toNat == 0) = true ↔ .scalar '\x00' ∈ name := by
  simp only [any_eq_true, beq_iff_eq, toNat_eq_zero_iff, exists_eq_right]

theorem checkClassName_eq_ok_iff (name : Text) : checkClassName name = .ok () ↔ Nameable name := by
  unfold checkClassName Nameable
  rw [← checkUtf8_eq_ok_iff, ← any_zero_iff]
  cases Text.checkUtf8 name with
  | error e => simp
  | ok u =>
    cases h : name.any fun c => c.toNat == 0 with
    | true => simp
    | false => simp

theorem nameFault_of_checkClassName (h : checkClassName name = .error f) : NameFault f := by
  unfold checkClassName at h
  split at h
  · cases h
    exact .encode _
  · split at h
    · cases h
      exact .zero
    · cases h

theorem nameable_append_iff {stem : Text} (hstem : Nameable stem) (name : Text) :
    Nameable (stem ++ name) ↔ Nameable name := by
  constructor
  · rintro ⟨hencodable, hzero⟩
    exact ⟨(forall_mem_append.mp hencodable).2, fun h => hzero (mem_append_right stem h)⟩
  · rintro ⟨hencodable, hzero⟩
    refine ⟨hstem.1.append hencodable, fun h => ?_⟩
    exact (mem_append.mp h).elim hstem.2 hzero

/-! ### Registrations as records -/

/-- The object literal of a component has its name. -/
def Registration.Consistent (r : Registration) : Prop :=
  ∀ fields, r.details = .object fields → fields.name = some r.name

/-- A record of a component: its name is there, and its flags are a text if they are there. -/
structure RecordOf (name : Text) (fields : List (String × Value)) : Prop where
  name : fields.lookup "name" = some (.str name)
  flags : ∃ flags, (fields.lookup "pattern_flags").getD (str "") = .str flags

theorem recordOf_fields {f : Fields} (h : f.name = some name) :
    ∃ fields, f.toValue = .record fields ∧ RecordOf name fields := by
  obtain ⟨_, description, pattern, require, parameters, types⟩ := f
  cases h
  refine ⟨_, rfl, rfl, ?_⟩
  cases pattern with
  | some p => exact ⟨p.2, by cases description <;> rfl⟩
  | none => exact ⟨"", by cases description <;> cases require <;> cases parameters <;> cases types <;> rfl⟩

theorem recordOf_toValue {r : Registration} (h : r.Consistent) :
    ∃ fields, r.toValue = .record fields ∧ RecordOf r.name fields := by
  obtain ⟨name, details⟩ := r
  cases details with
  | reply pattern text => exact ⟨_, rfl, rfl, "", rfl⟩
  | pattern pattern => exact ⟨_, rfl, rfl, "", rfl⟩
  | catchAll => exact ⟨_, rfl, rfl, "", rfl⟩
  | object fields => exact recordOf_fields (h fields rfl)

/-! ### One class -/

/-- The class that is made for a component of a role. -/
structure ClassOf (role : Role) (r : Registration) (c : ComponentClass) : Prop where
  made : componentClass role r.toValue = .ok c
  role : c.role = role
  name : c.name = .str r.name

def classStem : Role → Text
  | .command => "JsCommand_"
  | .action => "JsAction_"

theorem nameable_classStem (role : Role) : Nameable (classStem role) := by
  cases role with
  | command => exact ⟨encodable_ofString _, by decide⟩
  | action => exact ⟨encodable_ofString _, by decide⟩

theorem className_command (name : Text) (description pattern : Value) :
    (ComponentClass.command (.str name) description pattern).className = .ok (classStem .command ++ name) := rfl

theorem className_action (name : Text) (description require parameters types : Value) :
    (ComponentClass.action (.str name) description require parameters types).className
      = .ok (classStem .action ++ name) := rfl

theorem componentClass_eq {r : Registration} (h : r.Consistent) (role : Role) : ∃ c : ComponentClass,
    c.role = role ∧ c.name = .str r.name ∧
      componentClass role r.toValue = (checkClassName (classStem role ++ r.name) >>= fun _ => .ok c) := by
  obtain ⟨fields, hvalue, hname, flags, hflags⟩ := recordOf_toValue h
  rw [hvalue]
  cases role with
  | command =>
    refine ⟨.command (.str r.name) ((fields.lookup "description").getD (str "JS Command"))
      ((fields.lookup "pattern").getD (str "^$")), rfl, rfl, ?_⟩
    have hholds : (str flags).holds "i" = .ok (Text.occursIn "i" flags) := rfl
    simp only [componentClass, commandClass, Value.get_record, Value.ok_bind, hname, hflags, hholds, Option.getD_some,
      className_command]
    rfl
  | action =>
    refine ⟨.action (.str r.name) ((fields.lookup "description").getD (str "JS Action"))
      ((fields.lookup "require").getD (.list [str "当需要时"]))
      ((fields.lookup "parameters").getD (.record [("reason", str "执行原因")]))
      ((fields.lookup "types").getD (.list [str "text"])), rfl, rfl, ?_⟩
    simp only [componentClass, actionClass, Value.get_record, Value.ok_bind, hname, Option.getD_some, className_action]
    rfl

theorem exists_classOf_iff {r : Registration} (h : r.Consistent) (role : Role) :
    (∃ c, ClassOf role r c) ↔ Nameable r.name := by
  obtain ⟨c, hrole, hname, hc⟩ := componentClass_eq h role
  rw [← nameable_append_iff (nameable_classStem role), ← checkClassName_eq_ok_iff]
  constructor
  · rintro ⟨c', hmade, -, -⟩
    rw [hc] at hmade
    obtain ⟨u, hu, -⟩ := Value.bind_eq_ok.mp hmade
    exact hu
  · intro hu
    exact ⟨c, by rw [hc, hu]; rfl, hrole, hname⟩

theorem classOf_of_ok {r : Registration} (h : r.Consistent) {role : Role} {c : ComponentClass}
    (hc : componentClass role r.toValue = .ok c) : ClassOf role r c := by
  obtain ⟨c', hrole, hname, hc'⟩ := componentClass_eq h role
  rw [hc'] at hc
  obtain ⟨u, hu, he⟩ := Value.bind_eq_ok.mp hc
  cases he
  exact ⟨by rw [hc', hu]; rfl, hrole, hname⟩

theorem nameFault_of_componentClass {r : Registration} (h : r.Consistent) (role : Role)
    (hf : componentClass role r.toValue = .error f) : NameFault f := by
  obtain ⟨c, -, -, hc⟩ := componentClass_eq h role
  rw [hc] at hf
  rcases Value.bind_eq_error.mp hf with hf | ⟨u, -, hf⟩
  · exact nameFault_of_checkClassName hf
  · cases hf

/-! ### All classes -/

abbrev AllOf (role : Role) : List Registration → List ComponentClass → Prop := List.Forall₂ (ClassOf role)

theorem mapM_componentClass (role : Role) (h : ∀ r ∈ rs, r.Consistent)
    (cs : List ComponentClass) : (rs.mapM fun r => componentClass role r.toValue) = .ok cs ↔ AllOf role rs cs := by
  rw [Value.mapM_eq_ok_iff]
  constructor
  · intro hcs
    induction hcs with
    | nil => exact .nil
    | cons hc _ ih =>
      exact .cons (classOf_of_ok (h _ mem_cons_self) hc) (ih fun r hr => h r (mem_cons_of_mem _ hr))
  · exact fun hcs => hcs.imp fun r c hc => hc.made

theorem mapM_eq_error {α β : Type} {f : α → Outcome β} {xs : List α} {e : Fault} (h : xs.mapM f = .error e) :
    ∃ x ∈ xs, f x = .error e := by
  induction xs with
  | nil => cases h
  | cons x xs ih =>
    rw [mapM_cons] at h
    rcases Value.bind_eq_error.mp h with h | ⟨y, -, h⟩
    · exact ⟨x, mem_cons_self, h⟩
    · rcases Value.bind_eq_error.mp h with h | ⟨ys, -, h⟩
      · obtain ⟨z, hz, he⟩ := ih h
        exact ⟨z, mem_cons_of_mem x hz, he⟩
      · cases h

theorem exists_allOf_iff (role : Role) (h : ∀ r ∈ rs, r.Consistent) :
    (∃ cs, AllOf role rs cs) ↔ ∀ r ∈ rs, Nameable r.name := by
  induction rs with
  | nil => exact iff_of_true ⟨[], .nil⟩ nofun
  | cons r rs ih =>
    obtain ⟨hr, hrs⟩ := forall_mem_cons.mp h
    rw [forall_mem_cons, ← ih hrs, ← exists_classOf_iff hr role]
    constructor
    · rintro ⟨_, hcs⟩
      cases hcs with
      | cons hc hcs => exact ⟨⟨_, hc⟩, ⟨_, hcs⟩⟩
    · rintro ⟨⟨c, hc⟩, ⟨cs, hcs⟩⟩
      exact ⟨c :: cs, .cons hc hcs⟩

def Registrations.all (r : Registrations) : List Registration := r.commands ++ r.actions

/-- The classes of the components: one for each command and then one for each action. -/
def Registrations.Shown (r : Registrations) (cs : List ComponentClass) : Prop :=
  ∃ commands actions, cs = commands ++ actions ∧ AllOf .command r.commands commands ∧ AllOf .action r.actions actions

section
variable {r : Registrations} (h : ∀ x ∈ r.all, x.Consistent)
include h

theorem classes_eq_ok_iff (cs : List ComponentClass) : r.classes = .ok cs ↔ r.Shown cs := by
  obtain ⟨hcommands, hactions⟩ := forall_mem_append.mp h
  constructor
  · intro hcs
    obtain ⟨commands, hc, hcs⟩ := Value.bind_eq_ok.mp hcs
    obtain ⟨actions, ha, hcs⟩ := Value.bind_eq_ok.mp hcs
    exact ⟨commands, actions, (Except.ok.inj hcs).symm, (mapM_componentClass .command hcommands _).mp hc,
      (mapM_componentClass .action hactions _).mp ha⟩
  · rintro ⟨commands, actions, rfl, hc, ha⟩
    refine Value.bind_eq_ok.mpr ⟨commands, (mapM_componentClass .command hcommands _).mpr hc, ?_⟩
    exact Value.bind_eq_ok.mpr ⟨actions, (mapM_componentClass .action hactions _).mpr ha, rfl⟩

theorem exists_shown_iff : (∃ cs, r.Shown cs) ↔ ∀ x ∈ r.all, Nameable x.name := by
  obtain ⟨hcommands, hactions⟩ := forall_mem_append.mp h
  rw [Registrations.all, forall_mem_append, ← exists_allOf_iff .command hcommands,
    ← exists_allOf_iff .action hactions]
  constructor
  · rintro ⟨_, commands, actions, -, hc, ha⟩
    exact ⟨⟨commands, hc⟩, ⟨actions, ha⟩⟩
  · rintro ⟨⟨commands, hc⟩, ⟨actions, ha⟩⟩
    exact ⟨_, commands, actions, rfl, hc, ha⟩

theorem nameFault_of_classes (hf : r.classes = .error f) : NameFault f := by
  obtain ⟨hcommands, hactions⟩ := forall_mem_append.mp h
  rcases Value.bind_eq_error.mp hf with hf | ⟨commands, -, hf⟩
  · obtain ⟨x, hx, hf⟩ := mapM_eq_error hf
    exact nameFault_of_componentClass (hcommands x hx) .command hf
  · rcases Value.bind_eq_error.mp hf with hf | ⟨actions, -, hf⟩
    · obtain ⟨x, hx, hf⟩ := mapM_eq_error hf
      exact nameFault_of_componentClass (hactions x hx) .action hf
    · cases hf

end

/-! ### Components that were found -/

theorem mem_of_mem_register {x r : Registration} (h : x ∈ register r items) : x = r ∨ x ∈ items := by
  induction items with
  | nil => exact .inl (mem_singleton.mp h)
  | cons old items ih =>
    rw [register] at h
    split at h
    · exact (mem_cons.mp h).imp_right (mem_cons_of_mem old)
    · rcases mem_cons.mp h with rfl | h
      · exact .inr mem_cons_self
      · exact (ih h).imp_right (mem_cons_of_mem old)

theorem mem_of_mem_mergeByName {x : Registration} (h : x ∈ mergeByName items) : x ∈ items := by
  have hfold : ∀ (items acc : List Registration), x ∈ items.foldl (fun acc r => register r acc) acc →
      x ∈ acc ∨ x ∈ items := by
    intro items
    induction items with
    | nil => exact fun acc h => .inl h
    | cons r items ih =>
      intro acc h
      rcases ih _ h with h | h
      · rcases mem_of_mem_register h with rfl | h
        · exact .inr mem_cons_self
        · exact .inl h
      · exact .inr (mem_cons_of_mem r h)
  exact (hfold items [] h).resolve_left not_mem_nil

theorem consistent_replyRegistrations {calls : List ReplyCall} : ∀ {next : Nat},
    ∀ r ∈ replyRegistrations next calls, r.Consistent := by
  induction calls with
  | nil =>
    intro next r hr
    cases hr
  | cons call calls ih =>
    intro next
    rw [replyRegistrations]
    cases call.name with
    | some name => exact forall_mem_cons.mpr ⟨nofun, ih⟩
    | none => exact forall_mem_cons.mpr ⟨nofun, ih⟩

theorem consistent_numberedCommands {details : List Details} (h : ∀ d ∈ details, ∀ fields, d ≠ .object fields) :
    ∀ {next : Nat}, ∀ r ∈ numberedCommands next details, r.Consistent := by
  induction details with
  | nil =>
    intro next r hr
    cases hr
  | cons d details ih =>
    intro next
    obtain ⟨hd, hdetails⟩ := forall_mem_cons.mp h
    exact forall_mem_cons.mpr ⟨fun fields hf => absurd hf (hd fields), ih hdetails⟩

theorem consistent_objectRegistrations (blocks : List Text) : ∀ r ∈ objectRegistrations blocks, r.Consistent := by
  intro r hr fields hfields
  obtain ⟨block, -, hblock⟩ := mem_filterMap.mp hr
  obtain ⟨name, hname, rfl⟩ := Option.map_eq_some_iff.mp hblock
  cases hfields
  exact hname

theorem consistent_ofText (s : Text) : ∀ r ∈ (Registrations.ofText s).all, r.Consistent := by
  refine forall_mem_append.mpr ⟨fun r hr => ?_, consistent_objectRegistrations _⟩
  have hunnamed : ∀ d ∈ (Text.findAll patternCall s).map Details.pattern ++
      (Text.findAll catchAllCall s).map fun _ => Details.catchAll, ∀ fields, d ≠ .object fields := by
    refine forall_mem_append.mpr ⟨fun d hd => ?_, fun d hd => ?_⟩
    · obtain ⟨pattern, -, rfl⟩ := mem_map.mp hd
      exact nofun
    · obtain ⟨_, -, rfl⟩ := mem_map.mp hd
      exact nofun
  rcases mem_append.mp (mem_of_mem_mergeByName hr) with hr | hr
  · rcases mem_append.mp hr with hr | hr
    · exact consistent_replyRegistrations r hr
    · exact consistent_objectRegistrations _ r hr
  · exact consistent_numberedCommands hunnamed r hr

/-- **The classes of a plugin file**: all of its components get one, or none does because one of the names cannot be
shown. -/
theorem classes_ofText (s : Text) : (∃ cs, (Registrations.ofText s).classes = .ok cs ∧ (Registrations.ofText s).Shown cs ∧
      ∀ r ∈ (Registrations.ofText s).all, Nameable r.name) ∨
    ∃ f, (Registrations.ofText s).classes = .error f ∧ NameFault f ∧
      ∃ r ∈ (Registrations.ofText s).all, ¬ Nameable r.name := by
  have hconsistent := consistent_ofText s
  cases h : (Registrations.ofText s).classes with
  | ok cs =>
    have hshown := (classes_eq_ok_iff hconsistent cs).mp h
    exact .inl ⟨cs, rfl, hshown, (exists_shown_iff hconsistent).mp ⟨cs, hshown⟩⟩
  | error f =>
    refine .inr ⟨f, rfl, nameFault_of_classes hconsistent h, ?_⟩
    by_contra hall
    simp only [not_exists, not_and, not_not] at hall
    obtain ⟨cs, hcs⟩ := (exists_shown_iff hconsistent).mpr hall
    rw [(classes_eq_ok_iff hconsistent cs).mpr hcs] at h
    cases h

end PluginKit.Bridge
