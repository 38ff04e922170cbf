import PluginKit.Proofs.Bridge.Forms

/-!
# The passes over a plugin file

Each pass over a plugin file looks for the registrations of one form. At a registration it finds what belongs to
its form and nothing at one of another form, so that over a whole file it finds the registrations of its form in
their order (`SourceFile.findAll_file`).
-/

namespace PluginKit.Bridge

open Text List

variable {α : Type} {scan : Scanner α} {w : Written} {function : Text}

namespace Written

/-! ### What each pass finds -/

/-- What a scanner comes to at a registration, whatever follows it. -/
def Finds {α : Type} (scan : Scanner α) (w : Written) (r : Option α) : Prop :=
  match r with
  | none => ∀ t, scan (w.text ++ t) = none
  | some a => ∃ u v, w.text = u ++ v ∧ u ≠ [] ∧ ∀ t, scan (w.text ++ t) = some (a, v ++ t)

theorem finds_some {a : α} (h : ∀ t, scan (w.text ++ t) = some (a, w.rest ++ t)) : Finds scan w (some a) := by
  refine ⟨w.function ++ (w.pad 0 ++ .scalar '(' :: (w.pad 1 ++ w.arguments)), w.rest, ?_, ?_, h⟩
  · simp only [text, append_assoc, cons_append]
  · intro hnil
    have := congrArg List.length hnil
    simp at this

/-- A scanner finds none of another function, and none whose arguments it does not look for. -/
theorem finds_none {β : Type} {first : Text → Option β} (hw : w.Scannable) (hscan : Calls function first scan)
    (hf : function ∈ functions) (h : w.function = function → ∀ t, first (w.arguments ++ t) = none) :
    Finds scan w none := by
  intro t
  refine hscan _ ?_
  by_cases hfunction : w.function = function
  · rw [← hfunction, openCall_text hw t]
    exact h hfunction _
  · rw [w.openCall_other hf hfunction t]
    rfl

theorem catchAll_arguments (h : w.form = .catchAll) (t : Text) :
    ∃ c s, w.arguments ++ t = c :: s ∧ (c = 'a' ∨ c = '(') := by
  simp only [arguments, h, asyncText]
  cases w.isAsync with
  | true => exact ⟨_, _, rfl, .inl rfl⟩
  | false => exact ⟨_, _, rfl, .inr rfl⟩

theorem pattern_arguments (hw : w.Scannable) {literal : Literal} (h : w.form = .pattern literal)
    (t : Text) : ∃ c s, w.arguments ++ t = c :: s ∧ (c = '/' ∨ c = '"' ∨ c = '\'') := by
  have hform := hw.form
  rw [h] at hform
  rw [arguments, h]
  cases literal with
  | regex body flags => exact ⟨_, _, rfl, .inl rfl⟩
  | quoted q content =>
    have hq := hform.1
    simp only [isQuote, Bool.or_eq_true, beq_iff_eq] at hq
    exact ⟨_, _, rfl, .inr hq⟩

theorem object_arguments {role : Role} {before name : Text} (h : w.form = .object role before name)
    (t : Text) : ∃ s, w.arguments ++ t = .scalar '\x7b' :: s := by
  rw [arguments, h]
  exact ⟨_, rfl⟩

theorem finds_reply (hw : w.Scannable) : Finds replyCall w w.reply? := by
  have hother (h : w.function ≠ "mai.reply") : Finds replyCall w none :=
    finds_none hw calls_reply (by simp [functions]) fun hf => absurd hf h
  unfold reply?
  cases h : w.form with
  | reply source text name => exact finds_some (replyCall_reply hw h)
  | pattern literal => exact hother (by rw [function_pattern h]; decide)
  | catchAll => exact hother (by rw [function_catchAll h]; decide)
  | object role before name =>
    refine hother ?_
    rw [function_object h]
    cases role <;> decide

theorem finds_pattern (hw : w.Scannable) : Finds patternCall w w.pattern? := by
  have hnone := @finds_none _ _ _ _ _ _ hw calls_pattern (by simp [functions])
  unfold pattern?
  cases h : w.form with
  | reply source text name => exact hnone fun hf => absurd hf (by rw [function_reply h]; decide)
  | pattern literal => exact finds_some (patternCall_pattern hw h)
  | catchAll =>
    refine hnone fun _ t => ?_
    obtain ⟨c, s, hcs, hc⟩ := catchAll_arguments h t
    rw [hcs]
    rcases hc with rfl | rfl <;> exact commandPattern_other (by decide) (by decide) s
  | object role before name =>
    refine hnone fun _ t => ?_
    obtain ⟨s, hs⟩ := object_arguments h t
    rw [hs]
    exact commandPattern_other (by decide) (by decide) s

theorem finds_catchAll (hw : w.Scannable) : Finds catchAllCall w w.catchAll? := by
  have hnone := @finds_none _ _ _ _ _ _ hw calls_catchAll (by simp [functions])
  unfold catchAll?
  cases h : w.form with
  | reply source text name => exact hnone fun hf => absurd hf (by rw [function_reply h]; decide)
  | pattern literal =>
    refine hnone fun _ t => ?_
    obtain ⟨c, s, hcs, hc⟩ := pattern_arguments hw h t
    rw [hcs]
    rcases hc with rfl | rfl | rfl <;> exact catchAll_other (by decide) (by decide) s
  | catchAll => exact finds_some (catchAllCall_catchAll hw h)
  | object role before name =>
    refine hnone fun _ t => ?_
    obtain ⟨s, hs⟩ := object_arguments h t
    rw [hs]
    exact catchAll_other (by decide) (by decide) s

theorem finds_block (hw : w.Scannable) (role : Role) : Finds (objectCall (roleFunction role)) w (w.block? role) := by
  have hnone := @finds_none _ _ _ _ _ _ hw (calls_object (roleFunction role)) (roleFunction_mem role)
  unfold block?
  cases h : w.form with
  | reply source text name =>
    refine hnone fun hf => absurd hf ?_
    rw [function_reply h]
    cases role <;> decide
  | pattern literal =>
    refine hnone fun _ t => ?_
    obtain ⟨c, s, hcs, hc⟩ := pattern_arguments hw h t
    rw [hcs]
    rcases hc with rfl | rfl | rfl <;> exact bracketed_other (by decide) s
  | catchAll =>
    refine hnone fun _ t => ?_
    obtain ⟨c, s, hcs, hc⟩ := catchAll_arguments h t
    rw [hcs]
    rcases hc with rfl | rfl <;> exact bracketed_other (by decide) s
  | object r before name =>
    by_cases hr : r = role
    · subst hr
      simp only [if_true]
      exact objectCall_object hw h
    · simp only [if_neg hr]
      refine hnone fun hf => absurd hf ?_
      rw [function_object h]
      exact roleFunction_ne hr

end Written

/-! ### Files -/

/-- A plugin file: what stands before the first registration, and the registrations. -/
structure SourceFile where
  preamble : Text
  entries : List Written

namespace SourceFile

def text (f : SourceFile) : Text := f.preamble ++ f.entries.flatMap Written.text

/-- All registrations can be found. -/
structure WellFormed (f : SourceFile) : Prop where
  preamble : occursIn "mai." f.preamble = false
  entries : ∀ w ∈ f.entries, w.WellFormed

/-- The passes find all registrations. -/
structure Scannable (f : SourceFile) : Prop where
  preamble : occursIn "mai." f.preamble = false
  entries : ∀ w ∈ f.entries, w.Scannable

theorem WellFormed.scannable {f : SourceFile} (h : f.WellFormed) : f.Scannable :=
  ⟨h.preamble, fun w hw => (h.entries w hw).scannable⟩

end SourceFile

theorem Calls.needsMark {β : Type} {first : Text → Option β} (hscan : Calls function first scan)
    (hf : function ∈ Written.functions) : NeedsMark "mai." scan := by
  intro s hs
  have hmark : ∀ f ∈ Written.functions, "mai." <+: f := by decide
  refine hscan s ?_
  rw [openCall_eq_none fun hp => hs ((hmark function hf).trans hp)]
  rfl

namespace Written

theorem exists_text (w : Written) : ∃ s, w.text = .scalar 'm' :: s := by
  have hm : ∀ f ∈ functions, ∃ s, f = .scalar 'm' :: s := by
    simp only [functions, forall_mem_cons]
    exact ⟨⟨_, rfl⟩, ⟨_, rfl⟩, ⟨_, rfl⟩, forall_mem_nil _⟩
  obtain ⟨s, hs⟩ := hm w.function w.function_mem
  rw [text, hs]
  exact ⟨_, rfl⟩

theorem beginsWith_flatMap (ws : List Written) : BeginsWith (.scalar 'm') (ws.flatMap text) := by
  cases ws with
  | nil => exact .inl rfl
  | cons w ws =>
    obtain ⟨s, hs⟩ := w.exists_text
    refine .inr ?_
    rw [flatMap_cons, hs]
    rfl

theorem findAll_text (hscan : NeedsMark "mai." scan)
    (hw : w.Scannable) {r : Option α} (h : Finds scan w r) {t : Text} (ht : BeginsWith (.scalar 'm') t) :
    findAll scan (w.text ++ t) = r.toList ++ findAll scan t := by
  have hm : CodePoint.scalar 'm' ∉ ("ai." : Text) := by decide
  obtain ⟨s, hs⟩ := w.exists_text
  have hquiet := hw.quiet
  rw [hs, drop_one, tail_cons] at hquiet
  cases r with
  | none =>
    have hnone := h t
    rw [hs, cons_append] at hnone ⊢
    rw [findAll_of_none hnone, findAll_quiet hscan hm hquiet ht]
    rfl
  | some a =>
    obtain ⟨u, v, huv, hu, hsome⟩ := h
    have hread := hsome t
    obtain ⟨c, u, rfl⟩ := exists_cons_of_ne_nil hu
    rw [huv, append_assoc] at hread ⊢
    have hv : occursIn "mai." v = false := by
      rw [hs, cons_append, List.cons.injEq] at huv
      rw [huv.2] at hquiet
      exact occursIn_append_right hquiet
    rw [findAll_of_some hu hread, findAll_quiet hscan hm hv ht]
    rfl

end Written

/-- **A pass finds what it finds at each registration**, in their order, and nothing else. -/
theorem SourceFile.findAll_file (f : SourceFile) (hscan : NeedsMark "mai." scan)
    (hf : f.Scannable) (found : Written → Option α) (h : ∀ w : Written, w.Scannable → Written.Finds scan w (found w)) :
    findAll scan f.text = f.entries.filterMap found := by
  have hm : CodePoint.scalar 'm' ∉ ("ai." : Text) := by decide
  have hentries : ∀ ws : List Written, (∀ w ∈ ws, w.Scannable) →
      findAll scan (ws.flatMap Written.text) = ws.filterMap found := by
    intro ws
    induction ws with
    | nil => exact fun _ => rfl
    | cons w ws ih =>
      intro hws
      have hw := hws w mem_cons_self
      rw [flatMap_cons, Written.findAll_text hscan hw (h w hw) (Written.beginsWith_flatMap ws),
        ih fun x hx => hws x (mem_cons_of_mem _ hx)]
      cases hfound : found w with
      | none => rw [filterMap_cons_none hfound]; rfl
      | some a => rw [filterMap_cons_some hfound]; rfl
  rw [SourceFile.text, findAll_quiet hscan hm hf.preamble (Written.beginsWith_flatMap f.entries),
    hentries f.entries hf.entries]

section
variable {f : SourceFile}

theorem findAll_replyCall (hf : f.Scannable) : findAll replyCall f.text = f.entries.filterMap Written.reply? :=
  f.findAll_file (calls_reply.needsMark (by simp [Written.functions])) hf _
    fun _ => Written.finds_reply

theorem findAll_patternCall (hf : f.Scannable) : findAll patternCall f.text = f.entries.filterMap Written.pattern? :=
  f.findAll_file (calls_pattern.needsMark (by simp [Written.functions])) hf _
    fun _ => Written.finds_pattern

theorem findAll_catchAllCall (hf : f.Scannable) : findAll catchAllCall f.text = f.entries.filterMap Written.catchAll? :=
  f.findAll_file (calls_catchAll.needsMark (by simp [Written.functions])) hf _
    fun _ => Written.finds_catchAll

theorem findAll_objectCall (hf : f.Scannable) (role : Role) :
    findAll (objectCall (Written.roleFunction role)) f.text = f.entries.filterMap (Written.block? role) :=
  f.findAll_file ((calls_object _).needsMark (Written.roleFunction_mem role)) hf _
    fun _ hw => Written.finds_block hw role

end

end PluginKit.Bridge
