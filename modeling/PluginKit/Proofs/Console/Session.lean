import PluginKit.Console.Session
import PluginKit.Proofs.Files.Tree

/-!
# Sessions that go on

A step of a session that was completed did everything it says: each of its own steps was completed
(`completes_bind_iff`), and a file that was written stands in its place (`completes_writeFile`), where writing files of
other names leaves it (`Holds.writeFile`).
-/

namespace PluginKit.Console

open Files

/-- A step of a session ends with a result and not early. -/
def Completes {α : Type} (x : SessionM α) (w : Surroundings) (s : Session) (a : α) (s' : Session) : Prop :=
  (x.run w).run.run s = (.ok a, s')

section
variable {α β : Type} {w : Surroundings} {s s' : Session}

theorem completes_pure_iff {a b : α} : Completes (pure a) w s b s' ↔ a = b ∧ s = s' := by
  constructor
  · intro h
    cases h
    exact ⟨rfl, rfl⟩
  · rintro ⟨rfl, rfl⟩
    rfl

theorem run_bind (x : SessionM α) (f : α → SessionM β) (w : Surroundings) (s : Session) :
    ((x >>= f).run w).run.run s =
      match (x.run w).run.run s with
      | (.ok a, s₁) => ((f a).run w).run.run s₁
      | (.error e, s₁) => (.error e, s₁) := by
  show StateT.bind (x w) (ExceptT.bindCont fun a => f a w) s = match x w s with
    | (.ok a, s₁) => f a w s₁
    | (.error e, s₁) => (.error e, s₁)
  unfold StateT.bind
  obtain ⟨r, s₁⟩ := x w s
  cases r <;> rfl

theorem completes_bind_iff {x : SessionM α} {f : α → SessionM β} {b : β} :
    Completes (x >>= f) w s b s' ↔ ∃ a s₁, Completes x w s a s₁ ∧ Completes (f a) w s₁ b s' := by
  unfold Completes
  rw [run_bind]
  constructor
  · intro h
    split at h
    · next a s₁ hx => exact ⟨a, s₁, hx, h⟩
    · cases h
  · rintro ⟨a, s₁, hx, hf⟩
    rw [hx]
    exact hf

theorem not_completes_fail {f : Fault} {a : α} : ¬ Completes (Session.fail f) w s a s' := nofun

theorem completes_lift_iff {x : Outcome α} {a : α} : Completes (Session.lift x) w s a s' ↔ x = .ok a ∧ s = s' := by
  cases x with
  | error f => exact ⟨fun h => absurd h not_completes_fail, fun h => (by cases h.1)⟩
  | ok b =>
    rw [Session.lift, completes_pure_iff]
    exact ⟨fun h => ⟨by rw [h.1], h.2⟩, fun h => ⟨Except.ok.inj h.1, h.2⟩⟩

theorem completes_get_iff {a : Session} : Completes get w s a s' ↔ a = s ∧ s = s' := by
  constructor
  · intro h
    cases h
    exact ⟨rfl, rfl⟩
  · rintro ⟨rfl, rfl⟩
    rfl

theorem completes_read_iff {a : Surroundings} : Completes read w s a s' ↔ a = w ∧ s = s' := by
  constructor
  · intro h
    cases h
    exact ⟨rfl, rfl⟩
  · rintro ⟨rfl, rfl⟩
    rfl

theorem completes_modify_iff {f : Session → Session} {u : Unit} : Completes (modify f) w s u s' ↔ s' = f s := by
  constructor
  · intro h
    cases h
    rfl
  · rintro rfl
    rfl

/-! ### Files -/

theorem completes_locate {p : Path} {place : List Text} (h : Completes (Session.locate p) w s place s') :
    s.tree.locate w.directory p = .ok place ∧ s' = s := by
  obtain ⟨r, s₁, hr, h⟩ := completes_bind_iff.mp h
  obtain ⟨t, s₂, ht, hr⟩ := completes_bind_iff.mp hr
  obtain ⟨rfl, rfl⟩ := completes_get_iff.mp ht
  obtain ⟨v, s₃, hv, hr⟩ := completes_bind_iff.mp hr
  obtain ⟨rfl, rfl⟩ := completes_read_iff.mp hv
  obtain ⟨rfl, rfl⟩ := completes_pure_iff.mp hr
  cases hlocate : t.tree.locate v.directory p with
  | error o =>
    rw [hlocate] at h
    exact absurd h not_completes_fail
  | ok q =>
    rw [hlocate] at h
    obtain ⟨rfl, rfl⟩ := completes_pure_iff.mp h
    exact ⟨rfl, rfl⟩

/-- A file that could be written was put at the place of its path, where no directory was. -/
theorem completes_writeFile {p : Path} {content : Content} {u : Unit}
    (h : Completes (Session.writeFile p content) w s u s') : ∃ place, s.tree.locate w.directory p = .ok place ∧
      s.tree.find? place ≠ some .directory ∧ s' = { s with tree := s.tree.put place (.file content) } := by
  obtain ⟨place, s₁, hplace, hput⟩ := completes_bind_iff.mp h
  obtain ⟨hlocate, hs₁⟩ := completes_locate hplace
  obtain ⟨t, s₂, ht, hput⟩ := completes_bind_iff.mp hput
  obtain ⟨htree, hs₂⟩ := completes_get_iff.mp ht
  rw [htree, hs₁] at hput
  rw [← hs₂, hs₁] at hput
  refine ⟨place, hlocate, ?_⟩
  split at hput
  · exact absurd hput not_completes_fail
  · next hfind => exact ⟨hfind, completes_modify_iff.mp hput⟩

end

/-- A text file stands where a path leads. -/
def Holds (w : Surroundings) (t : Tree) (p : Path) (text : Text) : Prop :=
  ∃ place, t.locate w.directory p = .ok place ∧ t.find? place = some (.file (.text text))

section
variable {w : Surroundings} {s s' : Session} {u : Unit}

theorem holds_writeFile {p : Path} {text : Text} (h : Completes (Session.writeFile p (.text text)) w s u s') :
    Holds w s'.tree p text := by
  obtain ⟨place, hlocate, hfind, rfl⟩ := completes_writeFile h
  have hne : place ≠ [] := by
    rintro rfl
    exact hfind rfl
  exact ⟨place, Tree.locate_put hfind hlocate, Tree.find?_put_self hne _ _⟩

theorem Holds.writeFile {directory : Path} {name other text : Text} {content : Content}
    (hn : Tree.PlainPart name) (ho : Tree.PlainPart other) (hne : name ≠ other)
    (hold : Holds w s.tree (directory.child name) text)
    (h : Completes (Session.writeFile (directory.child other) content) w s u s') :
    Holds w s'.tree (directory.child name) text := by
  obtain ⟨place, hlocate, hfind⟩ := hold
  obtain ⟨q, hq, hdirectory, rfl⟩ := completes_writeFile h
  obtain ⟨base, hbase, hplace⟩ := Tree.locate_child hn hlocate
  obtain ⟨base', hbase', hplace'⟩ := Tree.locate_child ho hq
  rw [hbase] at hbase'
  cases hbase'
  have hpq : place ≠ q := by
    rintro rfl
    rw [hplace] at hplace'
    exact hne (List.singleton_inj.mp (List.append_cancel_left hplace'))
  refine ⟨place, Tree.locate_put hdirectory hlocate, ?_⟩
  rw [Tree.find?_put_of_ne hpq]
  exact hfind

/-! ### Printing -/

theorem completes_say {text : Text} (h : Completes (Session.say text) w s u s') : s'.tree = s.tree := by
  obtain ⟨v, s₁, hv, h⟩ := completes_bind_iff.mp h
  have hs : s = s₁ := by
    unfold Session.requireUtf8 at hv
    split at hv
    · exact (completes_pure_iff.mp hv).2
    · exact absurd hv not_completes_fail
  rw [completes_modify_iff.mp h, hs]

theorem completes_sayAll {lines : List Text} (h : Completes (Session.sayAll lines) w s u s') : s'.tree = s.tree := by
  induction lines generalizing s with
  | nil => rw [(completes_pure_iff.mp h).2]
  | cons line lines ih =>
    obtain ⟨v, s₁, hv, h⟩ := completes_bind_iff.mp h
    rw [ih h, completes_say hv]

end

end PluginKit.Console
