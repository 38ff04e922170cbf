import PluginKit.Proofs.Console.Runs
import PluginKit.Proofs.Value.Found

/-!
# How sessions stop

By what a step of a session can end early (`StopsOnly`). Printing and working with files ends by no exit but only by a
fault, and this fault is never that something is missing in a value; nor does it read a line (`Steady`). A step
that merely talks to somebody changes no files, and gives up with nothing but the exit code zero (`Talks`).
-/

namespace PluginKit.Console

open Files

variable {code : Nat} {w : Surroundings} {s s' : Session} {p : Path} {t : Tree} {text : Text}

/-- A step of a session ends early only in a certain way. -/
def StopsOnly (P : Stop → Prop) {α : Type} (x : SessionM α) : Prop := ∀ w s stop s', Ran x w s (.error stop) s' → P stop

/-- A fault that is not about looking for something in a value. -/
def Stop.IsPlain : Stop → Prop
  | .fault f => f.isLookup = false
  | _ => False

def Stop.Ends (stop : Stop) : Prop := stop ≠ .waiting

def Stop.ExitsIn (codes : List Nat) : Stop → Prop
  | .exit code => code ∈ codes
  | _ => True

section
variable {α β : Type} {P Q : Stop → Prop} {codes : List Nat}

theorem StopsOnly.bind {x : SessionM α} {f : α → SessionM β} (hx : StopsOnly P x) (hf : ∀ a, StopsOnly P (f a)) :
    StopsOnly P (x >>= f) := by
  intro w s stop s' h
  rcases ran_bind h with ⟨a, s₁, -, hrest⟩ | ⟨stop, hstop, hfirst⟩
  · exact hf a _ _ _ _ hrest
  · cases hstop
    exact hx _ _ _ _ hfirst

theorem StopsOnly.mono {x : SessionM α} (hx : StopsOnly P x) (h : ∀ stop, P stop → Q stop) : StopsOnly Q x :=
  fun w s stop s' hran => h stop (hx w s stop s' hran)

theorem stopsOnly_modify (f : Session → Session) : StopsOnly P (modify f : SessionM PUnit) := by
  intro w s stop s' h
  cases h

theorem stopsOnly_pure (a : α) : StopsOnly P (pure a) := by
  intro w s stop s' h
  cases h

theorem stopsOnly_get : StopsOnly P (get : SessionM Session) := by
  intro w s stop s' h
  cases h

theorem stopsOnly_read : StopsOnly P (read : SessionM Surroundings) := by
  intro w s stop s' h
  cases h

theorem stopsOnly_throw {stop : Stop} (h : P stop) : StopsOnly P (throw stop : SessionM α) := by
  intro w s stop' s' hran
  cases hran
  exact h

theorem stopsOnly_lift {x : Outcome α} (h : ∀ f, x = .error f → P (.fault f)) : StopsOnly P (Session.lift x) := by
  cases x with
  | error f => exact stopsOnly_throw (h f rfl)
  | ok a => exact stopsOnly_pure a

/-! ### Steps that read no line -/

/-- A step of a session reads no line, and ends early only in a certain way. -/
structure Steady (P : Stop → Prop) {α : Type} (x : SessionM α) : Prop where
  stops : StopsOnly P x
  lines : ∀ w s r s', Ran x w s r s' → s'.lines = s.lines

theorem Steady.bind {x : SessionM α} {f : α → SessionM β} (hx : Steady P x) (hf : ∀ a, Steady P (f a)) :
    Steady P (x >>= f) := by
  refine ⟨hx.stops.bind fun a => (hf a).stops, ?_⟩
  intro w s r s' h
  rcases ran_bind h with ⟨a, s₁, hfirst, hrest⟩ | ⟨stop, -, hfirst⟩
  · rw [(hf a).lines _ _ _ _ hrest, hx.lines _ _ _ _ hfirst]
  · exact hx.lines _ _ _ _ hfirst

theorem Steady.of_isPlain {x : SessionM α} (hx : Steady Stop.IsPlain x) (hP : ∀ f, P (.fault f)) : Steady P x := by
  refine ⟨hx.stops.mono fun stop hstop => ?_, hx.lines⟩
  cases stop with
  | fault f => exact hP f
  | exit code => exact hstop.elim
  | waiting => exact hstop.elim

theorem Looks.steady {x : SessionM α} (hx : Looks x) (hstops : StopsOnly P x) : Steady P x :=
  ⟨hstops, fun w s r s' h => by rw [hx w s r s' h]⟩

theorem steady_pure (a : α) : Steady P (pure a) := (looks_pure a).steady (stopsOnly_pure a)

theorem steady_get : Steady P (get : SessionM Session) := looks_get.steady stopsOnly_get

theorem steady_read : Steady P (read : SessionM Surroundings) := looks_read.steady stopsOnly_read

theorem steady_fail {f : Fault} (h : P (.fault f)) : Steady P (Session.fail f : SessionM α) :=
  (looks_fail f).steady (stopsOnly_throw h)

theorem steady_lift {x : Outcome α} (h : ∀ f, x = .error f → P (.fault f)) : Steady P (Session.lift x) :=
  (looks_lift x).steady (stopsOnly_lift h)

theorem steady_exit (h : P (.exit code)) : Steady P (Session.exit code : SessionM α) := by
  refine ⟨stopsOnly_throw h, ?_⟩
  intro w s r s' hran
  cases hran
  rfl

theorem steady_modify {f : Session → Session} (hf : ∀ s, (f s).lines = s.lines) : Steady P (modify f : SessionM PUnit) := by
  refine ⟨stopsOnly_modify f, ?_⟩
  intro w s r s' h
  cases h
  exact hf s

/-! ### Printing -/

theorem steady_print (text : Text) : Steady Stop.IsPlain (Session.print text) := by
  have hrequire : Steady Stop.IsPlain (Session.requireUtf8 text) := by
    unfold Session.requireUtf8
    split
    · exact steady_pure _
    · exact steady_fail rfl
  exact hrequire.bind fun _ => steady_modify fun _ => rfl

theorem steady_sayAll (lines : List Text) : Steady Stop.IsPlain (Session.sayAll lines) := by
  induction lines with
  | nil => exact steady_pure _
  | cons line lines ih => exact (steady_print _).bind fun _ => ih

/-! ### Files -/

theorem Obstacle.isPlain (o : Obstacle) (p : Path) : Stop.IsPlain (.fault (o.fault p)) := by cases o <;> rfl

theorem steady_locate? (p : Path) : Steady Stop.IsPlain (Session.locate? p) :=
  steady_get.bind fun _ => steady_read.bind fun _ => steady_pure _

theorem steady_locate (p : Path) : Steady Stop.IsPlain (Session.locate p) := by
  refine (steady_locate? p).bind fun located => ?_
  split
  · exact steady_pure _
  · exact steady_fail (Obstacle.isPlain _ p)

theorem steady_entry (p : Path) : Steady Stop.IsPlain (Session.entry? p) := by
  refine (steady_locate? p).bind fun located => ?_
  split
  · exact steady_get.bind fun _ => steady_pure _
  · exact steady_fail rfl
  · exact steady_pure _

theorem steady_exists? (p : Path) : Steady Stop.IsPlain (Session.exists? p) :=
  (steady_entry p).bind fun _ => steady_pure _

theorem steady_isDirectory (p : Path) : Steady Stop.IsPlain (Session.isDirectory p) :=
  (steady_entry p).bind fun _ => steady_pure _

theorem steady_readText (p : Path) : Steady Stop.IsPlain (Session.readText p) := by
  refine (steady_locate p).bind fun place => steady_get.bind fun t => steady_lift fun f hf => ?_
  unfold readEntry at hf
  split at hf
  · cases hf
    rfl
  · cases hf
    rfl
  · unfold Content.read at hf
    split at hf
    · cases hf
    · split at hf
      · cases hf
      · cases hf
        rfl
    · cases hf
      rfl

theorem steady_below (p : Path) : Steady Stop.IsPlain (Session.below p) := by
  refine (steady_locate? p).bind fun located => ?_
  split
  · exact steady_get.bind fun _ => steady_pure _
  · exact steady_pure _

theorem steady_writeFile (p : Path) (content : Content) : Steady Stop.IsPlain (Session.writeFile p content) := by
  refine (steady_locate p).bind fun place => steady_get.bind fun t => ?_
  split
  · exact steady_fail rfl
  · exact steady_modify fun _ => rfl

theorem steady_writeText (p : Path) (text : Text) : Steady Stop.IsPlain (Session.writeText p text) := by
  unfold Session.writeText
  split
  · exact steady_writeFile _ _
  · exact (steady_writeFile _ _).bind fun _ => steady_fail rfl

theorem steady_ensureDirectory (p : Path) : Steady Stop.IsPlain (Session.ensureDirectory p) := by
  refine (steady_locate p).bind fun place => steady_get.bind fun t => ?_
  split
  · exact steady_pure _
  · exact steady_fail rfl
  · exact steady_modify fun _ => rfl

theorem steady_ensureDirectories (p : Path) : Steady Stop.IsPlain (Session.ensureDirectories p) := by
  have hfrom : ∀ (root : Text) (parts : List Text), Steady Stop.IsPlain (Session.ensureFrom root parts) := by
    intro root parts
    induction parts with
    | nil => exact steady_pure _
    | cons part above ih =>
      refine (steady_locate? _).bind fun located => ?_
      split
      · exact ih.bind fun _ => steady_ensureDirectory _
      · exact steady_ensureDirectory _
  exact hfrom p.root p.parts.reverse

theorem steady_reaches (p : Path) : Steady Stop.IsPlain (Session.reaches p) := by
  refine (steady_locate? p).bind fun located => ?_
  split
  · exact steady_get.bind fun _ => steady_pure _
  · exact steady_pure _

theorem steady_makeMissing (root : Text) (parts : List Text) :
    Steady Stop.IsPlain (Session.makeMissing root parts) := by
  induction parts with
  | nil => exact steady_pure _
  | cons part above ih =>
    refine (steady_reaches _).bind fun reached => ?_
    split
    · exact steady_pure _
    · exact ih.bind fun _ => steady_ensureDirectory _

theorem steady_makeDirectories (p : Path) : Steady Stop.IsPlain (Session.makeDirectories p) := by
  refine (steady_makeMissing _ _).bind fun _ => (steady_locate p).bind fun place => steady_get.bind fun t => ?_
  split
  · exact steady_fail rfl
  · exact steady_modify fun _ => rfl

theorem steady_removeTree (p : Path) : Steady Stop.IsPlain (Session.removeTree p) := by
  refine (steady_locate p).bind fun place => steady_get.bind fun t => ?_
  split
  · exact steady_modify fun _ => rfl
  · exact steady_fail rfl
  · exact steady_fail rfl

theorem steady_copyTree (source target : Path) : Steady Stop.IsPlain (Session.copyTree source target) := by
  refine (steady_locate source).bind fun place => steady_get.bind fun t => ?_
  split
  · refine (steady_makeDirectories target).bind fun _ => (steady_locate target).bind fun copied => ?_
    split
    · exact steady_fail rfl
    · exact steady_modify fun _ => rfl
  · exact steady_fail rfl
  · exact steady_fail rfl

/-! ### Faults that are caught -/

theorem run_tryCatch (x : SessionM α) (handle : Stop → SessionM α) (w : Surroundings) (s : Session) :
    ((tryCatch x handle).run w).run.run s =
      match (x.run w).run.run s with
      | (.ok a, s₁) => (.ok a, s₁)
      | (.error stop, s₁) => ((handle stop).run w).run.run s₁ := by
  show ExceptT.tryCatch (x w) (fun stop => handle stop w) s = match x w s with
    | (.ok a, s₁) => (.ok a, s₁)
    | (.error stop, s₁) => handle stop w s₁
  simp only [ExceptT.tryCatch, ExceptT.mk, bind, StateT.bind]
  obtain ⟨r, s₁⟩ := x w s
  cases r <;> rfl

theorem ran_attempt {x : SessionM α} {r : Except Stop (Outcome α)}
    (h : Ran (Session.attempt x) w s r s') :
    (∃ a, Completes x w s a s' ∧ r = .ok (.ok a)) ∨ (∃ f, Ran x w s (.error (.fault f)) s' ∧ r = .ok (.error f)) ∨
      ∃ stop, Ran x w s (.error stop) s' ∧ r = .error stop := by
  unfold Ran Session.attempt at h
  rw [run_tryCatch, run_bind] at h
  cases hx : (x.run w).run.run s with | mk result s₁ =>
  rw [hx] at h
  cases result with
  | ok a =>
    cases h
    exact .inl ⟨a, hx, rfl⟩
  | error stop =>
    cases stop with
    | fault f =>
      cases h
      exact .inr (.inl ⟨f, hx, rfl⟩)
    | exit code =>
      cases h
      exact .inr (.inr ⟨.exit code, hx, rfl⟩)
    | waiting =>
      cases h
      exact .inr (.inr ⟨.waiting, hx, rfl⟩)

theorem Looks.attempt {x : SessionM α} (hx : Looks x) : Looks (Session.attempt x) := by
  intro w s r s' h
  rcases ran_attempt h with ⟨a, hran, -⟩ | ⟨f, hran, -⟩ | ⟨stop, hran, -⟩
  · exact hx _ _ _ _ hran
  · exact hx _ _ _ _ hran
  · exact hx _ _ _ _ hran

theorem StopsOnly.attempt {x : SessionM α} (hx : StopsOnly P x) : StopsOnly P (Session.attempt x) := by
  intro w s stop s' h
  rcases ran_attempt h with ⟨a, -, hr⟩ | ⟨f, -, hr⟩ | ⟨stop, hran, hr⟩
  · cases hr
  · cases hr
  · cases hr
    exact hx _ _ _ _ hran

end

theorem Steady.attempt {α : Type} {P : Stop → Prop} {x : SessionM α} (hx : Steady P x) : Steady P (Session.attempt x) := by
  refine ⟨hx.stops.attempt, ?_⟩
  intro w s r s' h
  rcases ran_attempt h with ⟨a, hran, -⟩ | ⟨f, hran, -⟩ | ⟨stop, hran, -⟩
  · exact hx.lines _ _ _ _ hran
  · exact hx.lines _ _ _ _ hran
  · exact hx.lines _ _ _ _ hran

/-! ### Talking -/

/-- A step of a session only talks to somebody: it changes no files, and where it gives up it is with the exit code
zero. -/
structure Talks {α : Type} (x : SessionM α) : Prop where
  keeps : KeepsTree x
  exits : StopsOnly (Stop.ExitsIn [0]) x

section
variable {α β : Type}

theorem Talks.bind {x : SessionM α} {f : α → SessionM β} (hx : Talks x) (hf : ∀ a, Talks (f a)) : Talks (x >>= f) :=
  ⟨hx.keeps.bind fun a => (hf a).keeps, hx.exits.bind fun a => (hf a).exits⟩

theorem Talks.exit {x : SessionM α} (hx : Talks x)
    (h : Ran x w s (.error (.exit code)) s') : code = 0 ∧ s'.tree = s.tree :=
  ⟨List.mem_singleton.mp (hx.exits _ _ _ _ h), hx.keeps _ _ _ _ h⟩

/-- A session that exits has given up while talking, or goes on with the files as they were. -/
theorem Talks.exit_bind {x : SessionM α} {f : α → SessionM β}
    (hx : Talks x) (h : Ran (x >>= f) w s (.error (.exit code)) s') :
    code = 0 ∧ s'.tree = s.tree ∨ ∃ a s₁, s₁.tree = s.tree ∧ Ran (f a) w s₁ (.error (.exit code)) s' := by
  rcases ran_bind h with ⟨a, s₁, hfirst, hrest⟩ | ⟨stop, hstop, hfirst⟩
  · exact .inr ⟨a, s₁, hx.keeps _ _ _ _ hfirst, hrest⟩
  · cases hstop
    exact .inl (hx.exit hfirst)

theorem talks_pure (a : α) : Talks (pure a) := ⟨keepsTree_pure a, stopsOnly_pure a⟩

theorem talks_get : Talks (get : SessionM Session) := ⟨looks_get.keepsTree, stopsOnly_get⟩

theorem talks_read : Talks (read : SessionM Surroundings) := ⟨looks_read.keepsTree, stopsOnly_read⟩

theorem talks_exit : Talks (Session.exit 0 : SessionM α) := by
  refine ⟨?_, stopsOnly_throw (List.mem_singleton.mpr rfl)⟩
  intro w s r s' h
  cases h
  rfl

theorem talks_print (text : Text) : Talks (Session.print text) := ⟨keepsTree_print text, ((steady_print text).of_isPlain fun _ => trivial).stops⟩

theorem talks_sayAll (lines : List Text) : Talks (Session.sayAll lines) :=
  ⟨keepsTree_sayAll lines, ((steady_sayAll lines).of_isPlain fun _ => trivial).stops⟩

theorem talks_nextLine? : Talks Session.nextLine? := by
  refine talks_get.bind fun t => ?_
  split
  · next line rest hlines =>
    refine ⟨?_, (stopsOnly_modify _).bind fun _ => stopsOnly_pure _⟩
    intro w s r s' h
    cases h
    rfl
  · refine talks_read.bind fun w => ?_
    split
    · exact talks_pure _
    · refine ⟨?_, stopsOnly_throw trivial⟩
      intro w s r s' h
      cases h
      rfl

end

/-! ### Looking -/

def Occupied (w : Surroundings) (t : Tree) (p : Path) : Prop :=
  ∃ place e, t.locate w.directory p = .ok place ∧ t.find? place = some e

theorem completes_entry? {o : Option Entry}
    (h : Completes (Session.entry? p) w s o s') :
    (∀ e, o = some e ↔ ∃ place, s.tree.locate w.directory p = .ok place ∧ s.tree.find? place = some e) ∧ s' = s := by
  obtain ⟨located, s₂, hlocated, h⟩ := completes_bind_iff.mp h
  obtain ⟨rfl, rfl⟩ := completes_locate?_iff.mp hlocated
  split at h
  · next place hplace =>
    obtain ⟨t, s₃, ht, h⟩ := completes_bind_iff.mp h
    obtain ⟨rfl, rfl⟩ := completes_get_iff.mp ht
    obtain ⟨rfl, rfl⟩ := completes_pure_iff.mp h
    refine ⟨fun e => ⟨fun he => ⟨place, hplace, he⟩, ?_⟩, rfl⟩
    rintro ⟨place', hplace', he⟩
    rw [hplace] at hplace'
    cases hplace'
    exact he
  · exact absurd h not_completes_fail
  · next o _ hobstacle =>
    obtain ⟨rfl, rfl⟩ := completes_pure_iff.mp h
    refine ⟨fun e => ⟨fun he => (by cases he), ?_⟩, rfl⟩
    rintro ⟨place, hplace, -⟩
    rw [hobstacle] at hplace
    cases hplace

theorem completes_exists? {b : Bool}
    (h : Completes (Session.exists? p) w s b s') : (b = true ↔ Occupied w s.tree p) ∧ s' = s := by
  obtain ⟨o, s₁, hentry, h⟩ := completes_bind_iff.mp h
  obtain ⟨rfl, rfl⟩ := completes_pure_iff.mp h
  obtain ⟨ho, rfl⟩ := completes_entry? hentry
  refine ⟨?_, rfl⟩
  rw [Option.isSome_iff_exists]
  simp only [ho, Occupied]
  exact exists_comm

def DirectoryAt (w : Surroundings) (t : Tree) (p : Path) : Prop :=
  ∃ place, t.locate w.directory p = .ok place ∧ t.find? place = some .directory

theorem DirectoryAt.occupied (h : DirectoryAt w t p) : Occupied w t p := by
  obtain ⟨place, hplace, hfind⟩ := h
  exact ⟨place, _, hplace, hfind⟩

theorem completes_entry?_of {place : List Text} {e : Entry}
    (hplace : s.tree.locate w.directory p = .ok place) (hfind : s.tree.find? place = some e) :
    Completes (Session.entry? p) w s (some e) s := by
  refine Completes.bind (completes_locate?_iff.mpr ⟨rfl, rfl⟩) ?_
  rw [hplace]
  refine Completes.bind (completes_get_iff.mpr ⟨rfl, rfl⟩) ?_
  rw [hfind]
  rfl

theorem Reads.occupied (h : Reads w t p text) : Occupied w t p := by
  obtain ⟨place, c, hplace, hfind, -⟩ := h
  exact ⟨place, _, hplace, hfind⟩

theorem Occupied.completes_exists? (h : Occupied w s.tree p) : Completes (Session.exists? p) w s true s := by
  obtain ⟨place, e, hplace, hfind⟩ := h
  exact Completes.bind (completes_entry?_of hplace hfind) rfl

theorem DirectoryAt.completes_isDirectory (h : DirectoryAt w s.tree p) :
    Completes (Session.isDirectory p) w s true s := by
  obtain ⟨place, hplace, hfind⟩ := h
  exact Completes.bind (completes_entry?_of hplace hfind) rfl

theorem Holds.completes_readText (h : Holds w s.tree p text) :
    Completes (Session.readText p) w s (Text.foldNewlines text) s := by
  obtain ⟨place, hplace, hfind⟩ := h
  exact completes_readText_iff.mpr ⟨⟨place, _, hplace, hfind, rfl⟩, rfl⟩

theorem Completes.unique {α : Type} {x : SessionM α} {s₁ s₂ : Session} {a b : α}
    (ha : Completes x w s a s₁) (hb : Completes x w s b s₂) : a = b ∧ s₁ = s₂ := by
  have h : ((.ok a, s₁) : Except Stop α × Session) = (.ok b, s₂) := ha.symm.trans hb
  cases h
  exact ⟨rfl, rfl⟩

end PluginKit.Console
