import PluginKit.Proofs.Console.Session
import PluginKit.Proofs.Files.Directory
import PluginKit.Proofs.Text.Encodable

/-!
# Sessions that may end early

What a step of a session has done when it ends, completed or not. A step that only looks changes nothing (`Looks`), and
one that talks changes no files (`KeepsTree`); writing a file has either written it or left everything as it was (`ran_writeFile`); making a directory
has made missing directories on the way to it and changed nothing else (`made_ensureDirectories`).
-/

namespace PluginKit.Console

open Files List

variable {text line : Text} {u : Unit} {lines place : List Text} {p : Path} {t : Tree} {content : Content}

/-- A step of a session ends, with a result or early. -/
def Ran {α : Type} (x : SessionM α) (w : Surroundings) (s : Session) (r : Except Stop α) (s' : Session) : Prop :=
  (x.run w).run.run s = (r, s')

section
variable {α β : Type} {w : Surroundings} {s s₁ s' : Session} {r : Except Stop β}

theorem exists_ran (x : SessionM α) (w : Surroundings) (s : Session) : ∃ r s', Ran x w s r s' := ⟨_, _, rfl⟩

theorem ran_bind {x : SessionM α} {f : α → SessionM β} (h : Ran (x >>= f) w s r s') :
    (∃ a s₁, Completes x w s a s₁ ∧ Ran (f a) w s₁ r s') ∨ ∃ stop, r = .error stop ∧ Ran x w s (.error stop) s' := by
  unfold Ran at h
  rw [run_bind] at h
  split at h
  · next a s₁ hx => exact .inl ⟨a, s₁, hx, h⟩
  · next stop s₁ hx =>
    cases h
    exact .inr ⟨stop, rfl, hx⟩

theorem Completes.bind {x : SessionM α} {f : α → SessionM β} {a : α} (hx : Completes x w s a s₁)
    (hf : Ran (f a) w s₁ r s') : Ran (x >>= f) w s r s' := by
  unfold Ran
  rw [run_bind, hx]
  exact hf

theorem Completes.exists_bind {x : SessionM α} {f : α → SessionM β} {a : α} {b : β} (hx : Completes x w s a s₁)
    (hf : ∃ s', Completes (f a) w s₁ b s') : ∃ s', Completes (x >>= f) w s b s' := by
  obtain ⟨s', hs'⟩ := hf
  exact ⟨s', hx.bind hs'⟩

theorem Completes.bind_iff {x : SessionM α} {f : α → SessionM β} {a : α} {b : β} (hx : Completes x w s a s₁) :
    Completes (x >>= f) w s b s' ↔ Completes (f a) w s₁ b s' := by
  unfold Completes at hx ⊢
  rw [run_bind, hx]

theorem Ran.bind_error {x : SessionM α} {f : α → SessionM β} {stop : Stop} (hx : Ran x w s (.error stop) s') :
    Ran (x >>= f) w s (.error stop) s' := by
  unfold Ran
  rw [run_bind, hx]

theorem ran_fail {f : Fault} : Ran (Session.fail f : SessionM α) w s (.error (.fault f)) s := rfl

theorem ran_lift_error {f : Fault} : Ran (Session.lift (.error f) : SessionM α) w s (.error (.fault f)) s := rfl

end

/-- A step is completed, and its result passes a test. -/
def completesWith {α : Type} (x : SessionM α) (w : Surroundings) (s : Session) (test : α → Bool) : Bool :=
  match (x.run w).run.run s with
  | (.ok a, _) => test a
  | (.error _, _) => false

theorem exists_of_completesWith {α : Type} {x : SessionM α} {w : Surroundings} {s : Session} {test : α → Bool}
    (h : completesWith x w s test = true) : ∃ a s', Completes x w s a s' ∧ test a = true := by
  unfold completesWith at h
  split at h
  · next a s' hrun => exact ⟨a, s', hrun, h⟩
  · cases h

/-- A step ends by a fault that passes a test. -/
def faultsWith {α : Type} (x : SessionM α) (w : Surroundings) (s : Session) (test : Fault → Bool) : Bool :=
  match (x.run w).run.run s with
  | (.error (.fault f), _) => test f
  | _ => false

theorem exists_of_faultsWith {α : Type} {x : SessionM α} {w : Surroundings} {s : Session} {test : Fault → Bool}
    (h : faultsWith x w s test = true) : ∃ f s', Ran x w s (.error (.fault f)) s' ∧ test f = true := by
  unfold faultsWith at h
  split at h
  · next f s' hrun => exact ⟨f, s', hrun, h⟩
  · cases h

/-! ### Steps that only look -/

/-- A step of a session changes nothing. -/
def Looks {α : Type} (x : SessionM α) : Prop := ∀ w s r s', Ran x w s r s' → s' = s

/-- A step of a session changes no files. -/
def KeepsTree {α : Type} (x : SessionM α) : Prop := ∀ w s r s', Ran x w s r s' → s'.tree = s.tree

section
variable {α β : Type}

theorem Looks.keepsTree {x : SessionM α} (h : Looks x) : KeepsTree x := by
  intro w s r s' hran
  rw [h w s r s' hran]

theorem Looks.bind {x : SessionM α} {f : α → SessionM β} (hx : Looks x) (hf : ∀ a, Looks (f a)) : Looks (x >>= f) := by
  intro w s r s' h
  rcases ran_bind h with ⟨a, s₁, hfirst, hrest⟩ | ⟨stop, -, hfirst⟩
  · rw [hf a _ _ _ _ hrest, hx _ _ _ _ hfirst]
  · exact hx _ _ _ _ hfirst

theorem looks_pure (a : α) : Looks (pure a) := by
  intro w s r s' h
  cases h
  rfl

theorem looks_fail (f : Fault) : Looks (Session.fail f : SessionM α) := by
  intro w s r s' h
  cases h
  rfl

theorem looks_lift (x : Outcome α) : Looks (Session.lift x) := by
  cases x with
  | error f => exact looks_fail f
  | ok a => exact looks_pure a

theorem looks_get : Looks (get : SessionM Session) := by
  intro w s r s' h
  cases h
  rfl

theorem looks_read : Looks (read : SessionM Surroundings) := by
  intro w s r s' h
  cases h
  rfl

theorem looks_locate? (p : Path) : Looks (Session.locate? p) :=
  looks_get.bind fun _ => looks_read.bind fun _ => looks_pure _

theorem looks_locate (p : Path) : Looks (Session.locate p) := by
  refine (looks_locate? p).bind fun located => ?_
  split
  · exact looks_pure _
  · exact looks_fail _

theorem looks_exists? (p : Path) : Looks (Session.exists? p) := by
  have hentry : Looks (Session.entry? p) := by
    refine (looks_locate? p).bind fun located => ?_
    split
    · exact looks_get.bind fun _ => looks_pure _
    · exact looks_fail _
    · exact looks_pure _
  exact hentry.bind fun _ => looks_pure _

theorem looks_readText (p : Path) : Looks (Session.readText p) :=
  (looks_locate p).bind fun _ => looks_get.bind fun _ => looks_lift _

theorem KeepsTree.bind {x : SessionM α} {f : α → SessionM β} (hx : KeepsTree x) (hf : ∀ a, KeepsTree (f a)) :
    KeepsTree (x >>= f) := by
  intro w s r s' h
  rcases ran_bind h with ⟨a, s₁, hfirst, hrest⟩ | ⟨stop, -, hfirst⟩
  · rw [hf a _ _ _ _ hrest, hx _ _ _ _ hfirst]
  · exact hx _ _ _ _ hfirst

theorem keepsTree_pure (a : α) : KeepsTree (pure a) := (looks_pure a).keepsTree

theorem keepsTree_fail (f : Fault) : KeepsTree (Session.fail f : SessionM α) := (looks_fail f).keepsTree

theorem keepsTree_lift (x : Outcome α) : KeepsTree (Session.lift x) := (looks_lift x).keepsTree

theorem keepsTree_print (text : Text) : KeepsTree (Session.print text) := by
  have hrequire : KeepsTree (Session.requireUtf8 text) := by
    unfold Session.requireUtf8
    split
    · exact keepsTree_pure _
    · exact keepsTree_fail _
  refine hrequire.bind fun _ => ?_
  intro w s r s' h
  cases h
  rfl

theorem keepsTree_say (text : Text) : KeepsTree (Session.say text) := keepsTree_print _

theorem keepsTree_sayAll (lines : List Text) : KeepsTree (Session.sayAll lines) := by
  induction lines with
  | nil => exact keepsTree_pure _
  | cons line lines ih => exact (keepsTree_say line).bind fun _ => ih

end

/-! ### Words -/

theorem completes_print_of {w : Surroundings} {s : Session} (h : Encodable text) :
    Completes (Session.print text) w s () { s with output := s.output ++ text } := by
  have hrequire : Completes (Session.requireUtf8 text) w s () s := by
    rw [Session.requireUtf8, checkUtf8_eq_ok_iff.mpr h]
    rfl
  exact Completes.bind hrequire rfl

theorem completes_say_of {w : Surroundings} {s : Session} (h : Encodable line) :
    Completes (Session.say line) w s () { s with output := s.output ++ (line ++ "\n") } :=
  completes_print_of (h.append (encodable_ofString _))

theorem completes_say_iff {w : Surroundings} {s s' : Session} :
    Completes (Session.say line) w s u s' ↔ Encodable line ∧ s' = { s with output := s.output ++ (line ++ "\n") } := by
  constructor
  · intro h
    have hline : Encodable line := by
      obtain ⟨_, s₁, hrequire, -⟩ := completes_bind_iff.mp h
      unfold Session.requireUtf8 at hrequire
      split at hrequire
      · next hok => exact (forall_mem_append.mp (checkUtf8_eq_ok_iff.mp hok)).1
      · exact absurd hrequire not_completes_fail
    have hsaid : Completes (Session.say line) w s () { s with output := s.output ++ (line ++ "\n") } :=
      completes_say_of hline
    exact ⟨hline, (Prod.mk.inj (h.symm.trans hsaid)).2⟩
  · rintro ⟨hline, rfl⟩
    exact completes_say_of hline

def unlines (lines : List Text) : Text := lines.flatMap fun line => line ++ "\n"

@[simp] theorem unlines_nil : unlines [] = [] := rfl

@[simp] theorem unlines_append (lines lines' : List Text) : unlines (lines ++ lines') = unlines lines ++ unlines lines' :=
  flatMap_append

def Session.saying (s : Session) (lines : List Text) : Session := { s with output := s.output ++ unlines lines }

theorem Session.saying_saying (s : Session) (lines lines' : List Text) :
    (s.saying lines).saying lines' = s.saying (lines ++ lines') := by
  simp only [saying, unlines_append, append_assoc]

theorem completes_sayAll_iff {w : Surroundings} {s s' : Session} :
    Completes (Session.sayAll lines) w s u s' ↔
      (∀ line ∈ lines, Encodable line) ∧ s' = s.saying lines := by
  unfold Session.saying
  induction lines generalizing s with
  | nil =>
    refine completes_pure_iff.trans ?_
    simp only [unlines_nil, append_nil, true_and, not_mem_nil, false_imp_iff, implies_true]
    exact eq_comm
  | cons line lines ih =>
    refine completes_bind_iff.trans ?_
    simp only [completes_say_iff, ih, forall_mem_cons]
    constructor
    · rintro ⟨_, s₁, ⟨hline, rfl⟩, hlines, rfl⟩
      exact ⟨⟨hline, hlines⟩, by simp only [unlines, flatMap_cons, append_assoc]⟩
    · rintro ⟨⟨hline, hlines⟩, rfl⟩
      exact ⟨(), _, ⟨hline, rfl⟩, hlines, by simp only [unlines, flatMap_cons, append_assoc]⟩

theorem completes_say_iff_saying {w : Surroundings} {s s' : Session} :
    Completes (Session.say line) w s u s' ↔ Encodable line ∧ s' = s.saying [line] := by
  rw [completes_say_iff]
  simp only [Session.saying, unlines, flatMap_cons, flatMap_nil, append_nil]

theorem completes_say_bind_iff {α : Type} {w : Surroundings} {s s' : Session} {f : SessionM α} {a : α} :
    Completes (Session.say line >>= fun _ => f) w s a s' ↔ Encodable line ∧ Completes f w (s.saying [line]) a s' := by
  rw [completes_bind_iff]
  constructor
  · rintro ⟨_, s₁, hsay, hrest⟩
    obtain ⟨hline, rfl⟩ := completes_say_iff_saying.mp hsay
    exact ⟨hline, hrest⟩
  · rintro ⟨hline, hrest⟩
    exact ⟨(), _, completes_say_iff_saying.mpr ⟨hline, rfl⟩, hrest⟩

theorem completes_sayAll_of {w : Surroundings} {s : Session} (h : ∀ line ∈ lines, Encodable line) :
    ∃ s', Completes (Session.sayAll lines) w s () s' :=
  ⟨_, completes_sayAll_iff.mpr ⟨h, rfl⟩⟩

/-! ### Files -/

section
variable {w : Surroundings} {s s' : Session}

theorem completes_locate?_iff {located : Except Obstacle (List Text)} :
    Completes (Session.locate? p) w s located s' ↔ located = s.tree.locate w.directory p ∧ s' = s := by
  constructor
  · intro h
    cases h
    exact ⟨rfl, rfl⟩
  · rintro ⟨rfl, rfl⟩
    rfl

theorem completes_locate_of (h : s.tree.locate w.directory p = .ok place) :
    Completes (Session.locate p) w s place s := by
  refine Completes.bind (completes_locate?_iff.mpr ⟨rfl, rfl⟩) ?_
  rw [h]
  rfl

theorem completes_requireUsable {paths : List Path} (h : Completes (Session.requireUsable paths) w s u s') :
    s' = s := by
  induction paths generalizing s with
  | nil => exact (completes_pure_iff.mp h).2.symm
  | cons p paths ih =>
    rw [Session.requireUsable] at h
    dsimp only at h
    split at h
    · exact ih h
    · exact ih h
    · obtain ⟨v, s₁, hfail, -⟩ := completes_bind_iff.mp h
      exact absurd hfail not_completes_fail

theorem completes_resolve {p' : Path} (h : Completes (Session.resolve p) w s p' s') :
    p' = p.resolve w.directory ∧ s' = s := by
  obtain ⟨u, s₁, husable, hrest⟩ := completes_bind_iff.mp h
  obtain rfl := completes_requireUsable husable
  obtain ⟨w', s₂, hw, hpure⟩ := completes_bind_iff.mp hrest
  obtain ⟨rfl, rfl⟩ := completes_read_iff.mp hw
  obtain ⟨rfl, rfl⟩ := completes_pure_iff.mp hpure
  exact ⟨rfl, rfl⟩

/-- The file to which a path leads reads as a text. -/
def Reads (w : Surroundings) (t : Tree) (p : Path) (text : Text) : Prop :=
  ∃ place c, t.locate w.directory p = .ok place ∧ t.find? place = some (.file c) ∧ c.read = .ok text

theorem Reads.unique {text' : Text} (h : Reads w t p text) (h' : Reads w t p text') : text = text' := by
  obtain ⟨place, c, hlocate, hfind, hread⟩ := h
  obtain ⟨place', c', hlocate', hfind', hread'⟩ := h'
  cases hlocate.symm.trans hlocate'
  cases hfind.symm.trans hfind'
  exact Except.ok.inj (hread.symm.trans hread')

theorem completes_readText_iff : Completes (Session.readText p) w s text s' ↔ Reads w s.tree p text ∧ s' = s := by
  constructor
  · intro h
    obtain ⟨place, s₁, hplace, hrest⟩ := completes_bind_iff.mp h
    obtain ⟨hlocate, rfl⟩ := completes_locate hplace
    obtain ⟨v, s₂, hget, hlift⟩ := completes_bind_iff.mp hrest
    obtain ⟨rfl, rfl⟩ := completes_get_iff.mp hget
    obtain ⟨hread, rfl⟩ := completes_lift_iff.mp hlift
    cases hfind : v.tree.find? place with
    | none =>
      rw [hfind] at hread
      cases hread
    | some e =>
      rw [hfind] at hread
      cases e with
      | directory => cases hread
      | file c => exact ⟨⟨place, c, hlocate, hfind, hread⟩, rfl⟩
  · rintro ⟨⟨place, c, hlocate, hfind, hread⟩, rfl⟩
    refine Completes.bind (completes_locate_of hlocate) (Completes.bind (completes_get_iff.mpr ⟨rfl, rfl⟩) ?_)
    rw [hfind]
    exact completes_lift_iff.mpr ⟨hread, rfl⟩

theorem completes_writeFile_of
    (hlocate : s.tree.locate w.directory p = .ok place) (hfind : s.tree.find? place ≠ some .directory) :
    Completes (Session.writeFile p content) w s () { s with tree := s.tree.put place (.file content) } := by
  refine Completes.bind (completes_locate_of hlocate) (Completes.bind (completes_get_iff.mpr ⟨rfl, rfl⟩) ?_)
  split
  · next h => exact absurd h hfind
  · rfl

theorem completes_writeFile_iff :
    Completes (Session.writeFile p content) w s u s' ↔ ∃ place, s.tree.locate w.directory p = .ok place ∧
      s.tree.find? place ≠ some .directory ∧ s' = { s with tree := s.tree.put place (.file content) } := by
  refine ⟨completes_writeFile, ?_⟩
  rintro ⟨place, hlocate, hfind, rfl⟩
  exact completes_writeFile_of hlocate hfind

theorem completes_below_iff {entries : List (List Text × Entry)}
    (hlocate : s.tree.locate w.directory p = .ok place) :
    Completes (Session.below p) w s entries s' ↔ entries = s.tree.below place ∧ s' = s := by
  unfold Session.below
  rw [Completes.bind_iff (completes_locate?_iff.mpr ⟨rfl, rfl⟩), hlocate]
  dsimp only
  rw [Completes.bind_iff (completes_get_iff.mpr ⟨rfl, rfl⟩), completes_pure_iff]
  exact and_congr eq_comm eq_comm

theorem completes_below_of (hlocate : s.tree.locate w.directory p = .ok place) :
    Completes (Session.below p) w s (s.tree.below place) s := (completes_below_iff hlocate).mpr ⟨rfl, rfl⟩

theorem completes_writeText_iff :
    Completes (Session.writeText p text) w s u s' ↔
      Encodable text ∧ Completes (Session.writeFile p (.text text)) w s u s' := by
  unfold Session.writeText
  cases hcheck : Text.checkUtf8 text with
  | ok _ => exact ⟨fun h => ⟨checkUtf8_eq_ok_iff.mp hcheck, h⟩, fun h => h.2⟩
  | error e =>
    refine iff_of_false ?_ ?_
    · intro h
      obtain ⟨_, s₁, -, hfail⟩ := completes_bind_iff.mp h
      exact not_completes_fail hfail
    · rintro ⟨htext, -⟩
      rw [checkUtf8_eq_ok_iff.mpr htext] at hcheck
      cases hcheck

/-- Writing a file has written it, or has ended early and changed nothing. -/
theorem ran_writeFile {r : Except Stop Unit}
    (h : Ran (Session.writeFile p content) w s r s') :
    Completes (Session.writeFile p content) w s () s' ∧ r = .ok () ∨ (∃ stop, r = .error stop) ∧ s'.tree = s.tree := by
  cases r with
  | ok u => exact .inl ⟨h, rfl⟩
  | error stop =>
    refine .inr ⟨⟨stop, rfl⟩, ?_⟩
    rcases ran_bind h with ⟨place, s₁, hlocate, h⟩ | ⟨_, -, hlocate⟩
    · have hs₁ := (completes_locate hlocate).2
      rcases ran_bind h with ⟨t, s₂, hget, h⟩ | ⟨_, -, hget⟩
      · obtain ⟨rfl, rfl⟩ := completes_get_iff.mp hget
        rw [← hs₁]
        split at h
        · exact keepsTree_fail _ _ _ _ _ h
        · cases h
      · cases hget
    · exact (looks_locate p).keepsTree _ _ _ _ hlocate

/-! ### Directories -/

theorem made_ensureDirectory {r : Except Stop Unit} (ht : Tree.Made w.directory t p s.tree)
    (h : Ran (Session.ensureDirectory p) w s r s') : Tree.Made w.directory t p s'.tree := by
  rcases ran_bind h with ⟨place, s₁, hlocate, hrest⟩ | ⟨_, -, hlocate⟩
  · obtain ⟨hplace, rfl⟩ := completes_locate hlocate
    rcases ran_bind hrest with ⟨u, s₂, hget, hmake⟩ | ⟨_, -, hget⟩
    · obtain ⟨rfl, rfl⟩ := completes_get_iff.mp hget
      split at hmake
      · rw [keepsTree_pure _ _ _ _ _ hmake]
        exact ht
      · rw [keepsTree_fail _ _ _ _ _ hmake]
        exact ht
      · next hnone =>
        cases hmake
        exact ht.put prefix_rfl (Tree.leadsTo_of_locate hplace) hnone
    · cases hget
  · rw [(looks_locate p).keepsTree _ _ _ _ hlocate]
    exact ht

theorem made_ensureFrom {root : Text} {parts : List Text} {r : Except Stop Unit}
    (h : Ran (Session.ensureFrom root parts) w s r s') : Tree.Made w.directory s.tree ⟨root, parts.reverse⟩ s'.tree := by
  induction parts generalizing s r s' with
  | nil =>
    rw [keepsTree_pure _ _ _ _ _ h]
    exact .refl _ _ _
  | cons part above ih =>
    have habove : above.reverse <+: (part :: above).reverse := by
      rw [reverse_cons]
      exact prefix_append _ _
    rcases ran_bind h with ⟨located, s₁, hlocate, hrest⟩ | ⟨_, -, hlocate⟩
    · obtain ⟨-, rfl⟩ := completes_locate?_iff.mp hlocate
      split at hrest
      · rcases ran_bind hrest with ⟨u, s₂, hmade, hlast⟩ | ⟨stop, -, hmade⟩
        · exact made_ensureDirectory ((ih hmade).mono habove) hlast
        · exact (ih hmade).mono habove
      · exact made_ensureDirectory (.refl _ _ _) hrest
    · rw [(looks_locate? _).keepsTree _ _ _ _ hlocate]
      exact .refl _ _ _

/-- **Making a directory** makes missing directories on the way to it, and changes nothing else even if it fails. -/
theorem made_ensureDirectories {r : Except Stop Unit} (h : Ran (Session.ensureDirectories p) w s r s') :
    Tree.Made w.directory s.tree p s'.tree := by
  have hmade := made_ensureFrom h
  rw [reverse_reverse] at hmade
  exact hmade

end

end PluginKit.Console
