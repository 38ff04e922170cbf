import PluginKit.Proofs.Console.Stops

/-!
# Dialogues

What a step of a session takes from the lines that are typed. A step conducts a dialogue (`Conducts`) if it takes exactly
the lines that the dialogue needs, and uses up the lines and gives up with the exit code zero if they do not suffice.
Dialogues follow one another (`Conducts.bind`).
-/

namespace PluginKit.Console

open Files

def Session.told (s : Session) (said : Text) (rest : List Text) : Session :=
  { s with output := s.output ++ said, lines := rest }

theorem Session.told_told (s : Session) (said said' : Text) (rest rest' : List Text) :
    (s.told said rest).told said' rest' = s.told (said ++ said') rest' := by
  simp only [told, List.append_assoc]

theorem Session.told_nil (s : Session) : s.told [] s.lines = s := by
  rw [told, List.append_nil]

/-! ### Dialogues -/

section
variable {α β : Type}

theorem Ran.unique {x : SessionM α} {w : Surroundings} {s s₁ s₂ : Session} {r₁ r₂ : Except Stop α}
    (h₁ : Ran x w s r₁ s₁) (h₂ : Ran x w s r₂ s₂) : r₁ = r₂ ∧ s₁ = s₂ := Prod.mk.inj (h₁.symm.trans h₂)

theorem Completes.ran_of_bind {x : SessionM α} {f : α → SessionM β} {w : Surroundings} {s s₁ s' : Session} {a : α}
    {r : Except Stop β} (hx : Completes x w s a s₁) (h : Ran (x >>= f) w s r s') : Ran (f a) w s₁ r s' := by
  unfold Ran at h
  rw [run_bind, hx] at h
  exact h

theorem ran_print_of_not_encodable {w : Surroundings} {s : Session} {text : Text} (h : ¬ Encodable text) :
    ∃ f, Ran (Session.print text) w s (.error (.fault f)) s := by
  cases hcheck : Text.checkUtf8 text with
  | ok _ => exact absurd (checkUtf8_eq_ok_iff.mp hcheck) h
  | error e =>
    have hrequire : Ran (Session.requireUtf8 text) w s (.error (.fault (.encode e))) s := by
      rw [Session.requireUtf8, hcheck]
      rfl
    exact ⟨_, hrequire.bind_error⟩

/-- From these lines a step learns a result, and leaves the rest of the lines. -/
def Learns (x : SessionM α) (w : Surroundings) (lines : List Text) (a : α) (rest : List Text) : Prop :=
  ∀ s : Session, s.lines = lines → ∃ said, Completes x w s a (s.told said rest)

/-- On these lines a step gives up when it has read them all. -/
def GivesUp (x : SessionM α) (w : Surroundings) (lines : List Text) : Prop :=
  ∀ s : Session, s.lines = lines → ∃ said, Ran x w s (.error (.exit 0)) (s.told said [])

/-- A step conducts a dialogue: it learns what there is to learn from the lines, and gives up if they do not suffice. -/
structure Conducts (x : SessionM α) (w : Surroundings) (dialogue : List Text → α → List Text → Prop) : Prop where
  learns : ∀ {lines a rest}, dialogue lines a rest → Learns x w lines a rest
  givesUp : ∀ {lines}, (∀ a rest, ¬ dialogue lines a rest) → GivesUp x w lines

variable {w : Surroundings} {x : SessionM α} {f : α → SessionM β} {lines middle rest : List Text} {a : α} {b : β}

theorem Learns.bind (hx : Learns x w lines a middle) (hf : Learns (f a) w middle b rest) :
    Learns (x >>= f) w lines b rest := by
  intro s hs
  obtain ⟨said, h⟩ := hx s hs
  obtain ⟨said', h'⟩ := hf (s.told said middle) rfl
  rw [Session.told_told] at h'
  exact ⟨said ++ said', Completes.bind h h'⟩

theorem Learns.bind_givesUp (hx : Learns x w lines a middle) (hf : GivesUp (f a) w middle) :
    GivesUp (x >>= f) w lines := by
  intro s hs
  obtain ⟨said, h⟩ := hx s hs
  obtain ⟨said', h'⟩ := hf (s.told said middle) rfl
  rw [Session.told_told] at h'
  exact ⟨said ++ said', Completes.bind h h'⟩

theorem GivesUp.bind (hx : GivesUp x w lines) : GivesUp (x >>= f) w lines := by
  intro s hs
  obtain ⟨said, h⟩ := hx s hs
  exact ⟨said, h.bind_error⟩

/-- **Dialogues follow one another**, the next one on the lines that the last one has left. -/
theorem Conducts.bind {dialogue : List Text → α → List Text → Prop} {next : α → List Text → β → List Text → Prop}
    (hx : Conducts x w dialogue) (hf : ∀ a, Conducts (f a) w (next a)) :
    Conducts (x >>= f) w fun lines b rest => ∃ a middle, dialogue lines a middle ∧ next a middle b rest where
  learns := by
    rintro lines b rest ⟨a, middle, hfirst, hnext⟩
    exact (hx.learns hfirst).bind ((hf a).learns hnext)
  givesUp := by
    intro lines hnone
    by_cases hfirst : ∃ a middle, dialogue lines a middle
    · obtain ⟨a, middle, hfirst⟩ := hfirst
      refine (hx.learns hfirst).bind_givesUp ((hf a).givesUp fun b rest hnext => ?_)
      exact hnone b rest ⟨a, middle, hfirst, hnext⟩
    · refine (hx.givesUp fun a middle h => ?_).bind
      exact hfirst ⟨a, middle, h⟩

theorem Conducts.congr {dialogue dialogue' : List Text → α → List Text → Prop} (h : Conducts x w dialogue)
    (hiff : ∀ lines a rest, dialogue' lines a rest ↔ dialogue lines a rest) : Conducts x w dialogue' where
  learns hd := h.learns ((hiff _ _ _).mp hd)
  givesUp hnone := h.givesUp fun a rest hd => hnone a rest ((hiff _ _ _).mpr hd)

/-- A step that learns its result from nothing can stand before a dialogue. -/
theorem Conducts.after {dialogue : List Text → β → List Text → Prop} (hx : ∀ lines, Learns x w lines a lines)
    (hf : Conducts (f a) w dialogue) : Conducts (x >>= f) w dialogue where
  learns hd := (hx _).bind (hf.learns hd)
  givesUp hnone := (hx _).bind_givesUp (hf.givesUp hnone)

/-- A step that completes and changes nothing learns its result from nothing. -/
theorem learns_of_completes (h : ∀ s, Completes x w s a s) (lines : List Text) : Learns x w lines a lines := by
  rintro s rfl
  refine ⟨[], ?_⟩
  rw [Session.told_nil]
  exact h s

theorem learns_pure (a : α) (lines : List Text) : Learns (pure a) w lines a lines :=
  learns_of_completes (fun _ => completes_pure_iff.mpr ⟨rfl, rfl⟩) lines

theorem conducts_pure (a : α) : Conducts (pure a) w fun lines b rest => b = a ∧ rest = lines where
  learns := by
    rintro lines b rest ⟨rfl, rfl⟩
    exact learns_pure b rest
  givesUp {lines} hnone := absurd ⟨rfl, rfl⟩ (hnone a lines)

theorem learns_read (lines : List Text) : Learns read w lines w lines :=
  learns_of_completes (fun _ => completes_read_iff.mpr ⟨rfl, rfl⟩) lines

theorem learns_print {text : Text} (h : Encodable text) (lines : List Text) :
    Learns (Session.print text) w lines () lines := by
  rintro s rfl
  exact ⟨text, completes_print_of h⟩

theorem learns_say {line : Text} (h : Encodable line) (lines : List Text) : Learns (Session.say line) w lines () lines :=
  learns_print (h.append (encodable_ofString _)) lines

theorem learns_sayAll {said : List Text} (h : ∀ line ∈ said, Encodable line) (lines : List Text) :
    Learns (Session.sayAll said) w lines () lines := by
  rintro s rfl
  exact ⟨unlines said, completes_sayAll_iff.mpr ⟨h, rfl⟩⟩

theorem learns_nextLine? (line : Text) (rest : List Text) : Learns Session.nextLine? w (line :: rest) (some line) rest := by
  intro s hs
  refine ⟨[], Completes.bind (completes_get_iff.mpr ⟨rfl, rfl⟩) ?_⟩
  rw [hs, Session.told, List.append_nil]
  rfl

theorem learns_nextLine?_nil (hends : w.inputEnds = true) : Learns Session.nextLine? w [] none [] := by
  intro s hs
  refine ⟨[], Completes.bind (completes_get_iff.mpr ⟨rfl, rfl⟩) ?_⟩
  rw [← hs, Session.told_nil, hs]
  refine Completes.bind (completes_read_iff.mpr ⟨rfl, rfl⟩) ?_
  rw [if_pos hends]
  rfl

theorem givesUp_exit : GivesUp (Session.exit 0 : SessionM α) w [] := by
  intro s hs
  refine ⟨[], ?_⟩
  rw [← hs, Session.told_nil]
  rfl

end

/-! ### Steps that read no line -/

section
variable {α β : Type} {x : SessionM α}

theorem Steady.ran {w : Surroundings} {s s' : Session} {r : Except Stop α} (hx : Steady Stop.Ends x) (h : Ran x w s r s') :
    r ≠ .error .waiting ∧ s'.lines = s.lines := by
  refine ⟨?_, hx.lines _ _ _ _ h⟩
  rintro rfl
  exact hx.stops _ _ _ _ h rfl

/-- A step reads what it reads, whatever steps that read no line are added to it. -/
theorem ran_bind_deaf {f : α → SessionM β} {w : Surroundings} {s s' : Session} {r : Except Stop β}
    {P : List Text → Prop} (hx : ∀ r s', Ran x w s r s' → r ≠ .error .waiting ∧ P s'.lines)
    (hf : ∀ a, Steady Stop.Ends (f a)) (h : Ran (x >>= f) w s r s') : r ≠ .error .waiting ∧ P s'.lines := by
  rcases ran_bind h with ⟨a, s₁, hfirst, hrest⟩ | ⟨stop, rfl, hfirst⟩
  · obtain ⟨hends, hlines⟩ := (hf a).ran hrest
    rw [hlines]
    exact ⟨hends, (hx _ _ hfirst).2⟩
  · obtain ⟨hends, hlines⟩ := hx _ _ hfirst
    refine ⟨fun hwaiting => hends ?_, hlines⟩
    rw [Except.error.inj hwaiting]

end

end PluginKit.Console
