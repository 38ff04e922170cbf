import PluginKit.Console.Run
import PluginKit.Proofs.Console.Stops
import PluginKit.Proofs.Script.PluginName

/-!
# Plugins that are not created

The creation of a plugin ends by an exit code if the name is bad, if somebody gives up or refuses to replace what is
there, or if there is no template. In the first two cases no file is changed. A missing template is noticed only after
the directory of the plugin was cleared: what was there is then lost (`create_exit_tree`).
-/

namespace PluginKit.Template

open Console Files

variable {w : Surroundings} {s s' : Session} {o : Order}

/-! ### Questions -/

theorem talks_silent (yes : Bool) : Talks (silent yes) := talks_read.bind fun _ => talks_pure _

theorem talks_askLine (question : Text) : Talks (askLine question) := by
  refine (talks_print _).bind fun _ => talks_nextLine?.bind fun line => ?_
  split
  · exact talks_pure _
  · exact (talks_print _).bind fun _ => talks_exit

theorem talks_askText (question default : Text) (yes : Bool) : Talks (askText question default yes) := by
  refine (talks_silent yes).bind fun quiet => ?_
  split
  · exact talks_pure _
  · exact (talks_askLine _).bind fun _ => talks_pure _

theorem talks_confirm (question : Text) (yes : Bool) : Talks (confirm question yes) := by
  refine (talks_silent yes).bind fun quiet => ?_
  split
  · exact talks_pure _
  · exact (talks_askLine _).bind fun _ => talks_pure _

theorem talks_givenOr (given : Option Text) (question default : Text) (yes : Bool) :
    Talks (givenOr given question default yes) := by
  unfold givenOr
  split
  · split
    · exact talks_askText _ _ _
    · exact talks_pure _
  · exact talks_askText _ _ _

theorem talks_chooseFrom (patience : Nat) : Talks (chooseFrom patience) := by
  induction patience with
  | zero => exact (talks_askLine _).bind fun _ => talks_exit
  | succ patience ih =>
    refine (talks_askLine _).bind fun answer => ?_
    split
    · exact talks_pure _
    · exact (talks_print _).bind fun _ => ih

theorem talks_pickKind (o : Order) : Talks (pickKind o) := by
  unfold pickKind
  split
  · exact talks_pure _
  · refine (talks_silent o.yes).bind fun quiet => ?_
    split
    · exact (talks_print _).bind fun _ => talks_pure _
    · exact (talks_sayAll _).bind fun _ => talks_get.bind fun _ => talks_chooseFrom _

theorem talks_askFacts (o : Order) (k : Kind) : Talks (askFacts o k) :=
  (talks_givenOr _ _ _ _).bind fun _ => (talks_givenOr _ _ _ _).bind fun _ => (talks_givenOr _ _ _ _).bind fun _ =>
    talks_read.bind fun _ => talks_pure _

theorem asked_of_confirm {question : Text} {yes : Bool} (h : Completes (confirm question yes) w s true s') :
    w.terminal = true ∧ yes = false := by
  obtain ⟨quiet, s₁, hquiet, h⟩ := completes_bind_iff.mp h
  obtain ⟨w', s₂, hw', hquiet⟩ := completes_bind_iff.mp hquiet
  obtain ⟨rfl, rfl⟩ := completes_read_iff.mp hw'
  obtain ⟨rfl, rfl⟩ := completes_pure_iff.mp hquiet
  split at h
  · cases (completes_pure_iff.mp h).1
  · next hasked =>
    rw [Bool.or_eq_true, Bool.not_eq_true'] at hasked
    simp only [not_or, Bool.not_eq_true, Bool.not_eq_false] at hasked
    exact ⟨hasked.2, hasked.1⟩

/-! ### The directory of the plugin -/

theorem completes_removeTree {p : Path} {u : Unit} (h : Completes (Session.removeTree p) w s u s') :
    ∃ place, s.tree.locate w.directory p = .ok place ∧ s.tree.find? place = some .directory ∧
      s'.tree = s.tree.prune place := by
  obtain ⟨place, s₁, hplace, hrest⟩ := completes_bind_iff.mp h
  obtain ⟨hlocate, rfl⟩ := completes_locate hplace
  obtain ⟨t, s₂, ht, hremove⟩ := completes_bind_iff.mp hrest
  obtain ⟨rfl, rfl⟩ := completes_get_iff.mp ht
  split at hremove
  · next hfind =>
    rw [completes_modify_iff.mp hremove]
    exact ⟨place, hlocate, hfind, rfl⟩
  · exact absurd hremove not_completes_fail
  · exact absurd hremove not_completes_fail

/-- The directory of a plugin was cleared with the consent of somebody who was asked. -/
def Cleared (w : Surroundings) (o : Order) (t t' : Tree) : Prop :=
  w.terminal = true ∧ o.yes = false ∧ ∃ place, t.locate w.directory o.directory = .ok place ∧
    t.find? place = some .directory ∧ t' = t.prune place

/-- There is room for the plugin if nothing was there or what was there is removed. -/
theorem completes_makeRoom {u : Unit} (h : Completes (makeRoom o) w s u s') :
    ¬ Occupied w s.tree o.directory ∧ s'.tree = s.tree ∨
      Occupied w s.tree o.directory ∧ Cleared w o s.tree s'.tree := by
  obtain ⟨there, s₁, hthere, hrest⟩ := completes_bind_iff.mp h
  obtain ⟨hoccupied, rfl⟩ := completes_exists? hthere
  split at hrest
  · next hyes =>
    obtain ⟨answer, s₂, hanswer, hlast⟩ := completes_bind_iff.mp hrest
    have htree := (talks_confirm _ _).keeps _ _ _ _ hanswer
    split at hlast
    · next hconfirmed =>
      subst hconfirmed
      obtain ⟨place, hlocate, hfind, hpruned⟩ := completes_removeTree hlast
      rw [htree] at hlocate hfind hpruned
      obtain ⟨hterminal, hasked⟩ := asked_of_confirm hanswer
      exact .inr ⟨hoccupied.mp hyes, hterminal, hasked, place, hlocate, hfind, hpruned⟩
    · obtain ⟨_, s₃, -, hexit⟩ := completes_bind_iff.mp hlast
      cases hexit
  · next hno =>
    obtain ⟨-, rfl⟩ := completes_pure_iff.mp hrest
    exact .inl ⟨fun hthere => hno (hoccupied.mpr hthere), rfl⟩

theorem exit_makeRoom {code : Nat} (h : Ran (makeRoom o) w s (.error (.exit code)) s') :
    code = 0 ∧ s'.tree = s.tree := by
  rcases ran_bind h with ⟨there, s₁, hthere, hrest⟩ | ⟨stop, hstop, hthere⟩
  · obtain ⟨-, rfl⟩ := completes_exists? hthere
    split at hrest
    · rcases ran_bind hrest with ⟨answer, s₂, hanswer, hlast⟩ | ⟨stop, hstop, hanswer⟩
      · rw [← (talks_confirm _ _).keeps _ _ _ _ hanswer]
        split at hlast
        · exact ((steady_removeTree _).stops _ _ _ _ hlast).elim
        · have hcancelled : Talks (Session.say "已取消。" >>= fun _ => (Session.exit 0 : SessionM Unit)) :=
            (talks_print _).bind fun _ => talks_exit
          exact hcancelled.exit hlast
      · cases hstop
        exact (talks_confirm _ _).exit hanswer
    · cases hrest
  · cases hstop
    exact ((steady_exists? _).stops _ _ _ _ hthere).elim

/-! ### The copy of the template -/

theorem steady_fillFiles (f : Facts) (directory : Path) (files : List (List Text × Entry)) :
    Steady Stop.IsPlain (fillFiles f directory files) := by
  induction files with
  | nil => exact steady_pure _
  | cons file files ih =>
    obtain ⟨parts, entry⟩ := file
    cases entry with
    | directory => exact ih
    | file content =>
      unfold fillFiles
      split
      · exact (steady_writeText _ _).bind fun _ => ih
      · exact ih

theorem steady_plant (template : Path) (f : Facts) (directory : Path) : Steady Stop.IsPlain (plant template f directory) :=
  (steady_copyTree template directory).bind fun _ => (steady_print _).bind fun _ =>
    (steady_below directory).bind fun files => steady_fillFiles f directory files

section
variable {P : Stop → Prop} (hP : ∀ fault, P (.fault fault))
include hP

theorem steady_updateManifest (f : Facts) (manifest : Path) : Steady P (updateManifest f manifest) := by
  refine ((steady_readText manifest).of_isPlain hP).bind fun text => ?_
  split
  · exact steady_fail (hP _)
  · refine (steady_lift fun _ _ => hP _).bind fun updated => ((steady_writeFile _ _).of_isPlain hP).bind fun _ => ?_
    split
    · exact steady_fail (hP _)
    · exact steady_pure _

theorem steady_refreshManifest (f : Facts) (directory : Path) : Steady P (refreshManifest f directory) := by
  refine ((steady_exists? _).of_isPlain hP).bind fun there => ?_
  split
  · refine (steady_updateManifest hP f _).attempt.bind fun outcome => ?_
    split
    · exact steady_pure _
    · exact (steady_print _).of_isPlain hP
  · exact steady_pure _

end

theorem steady_announce (k : Kind) (f : Facts) (directory : Path) : Steady Stop.IsPlain (announce k f directory) :=
  (steady_print _).bind fun _ => (steady_print _).bind fun _ => (steady_below directory).bind fun _ =>
    (steady_sayAll _).bind fun _ => steady_sayAll _

/-- A plugin is made without asking and without an exit, once its template was found. -/
theorem steady_make {P : Stop → Prop} (hP : ∀ fault, P (.fault fault)) (template : Path) (k : Kind) (f : Facts)
    (directory : Path) : Steady P (do
      plant template f directory
      refreshManifest f directory
      announce k f directory) :=
  ((steady_plant template f directory).of_isPlain hP).bind fun _ => (steady_refreshManifest hP f directory).bind fun _ =>
    (steady_announce k f directory).of_isPlain hP

/-- Only a missing template ends the making of a plugin by an exit code; once it was found, nothing does. -/
theorem exit_install {k : Kind} {f : Facts} {directory : Path} {code : Nat}
    (h : Ran (install k f directory) w s (.error (.exit code)) s') :
    code = 1 ∧ s'.tree = s.tree ∧ ¬ Occupied w s.tree (w.templates.child k.key) := by
  rcases ran_bind h with ⟨w', s₁, hread, hrest⟩ | ⟨stop, hstop, hread⟩
  · obtain ⟨rfl, rfl⟩ := completes_read_iff.mp hread
    rcases ran_bind hrest with ⟨there, s₂, hthere, hlast⟩ | ⟨stop, hstop, hthere⟩
    · obtain ⟨hoccupied, rfl⟩ := completes_exists? hthere
      split at hlast
      · have hmake := (steady_make (P := Stop.ExitsIn []) (fun _ => trivial) (w'.templates.child k.key) k f directory).stops
        exact absurd (hmake _ _ _ _ hlast) List.not_mem_nil
      · next hno =>
        rcases ran_bind hlast with ⟨_, s₃, hsay, hexit⟩ | ⟨stop, hstop, hsay⟩
        · cases hexit
          exact ⟨rfl, completes_say hsay, fun hthere => hno (hoccupied.mpr hthere)⟩
        · cases hstop
          exact ((steady_print _).stops _ _ _ _ hsay).elim
    · cases hstop
      exact ((steady_exists? _).stops _ _ _ _ hthere).elim
  · cases hread

/-! ### Creation -/

theorem talks_invite (yes : Bool) : Talks (invite yes) := by
  unfold invite
  split
  · exact talks_pure _
  · exact talks_print _

/-- How the creation of a plugin with a good name exits: before its directory is touched, or because the template is
missing when there is room for the plugin. -/
theorem exit_create {code : Nat} (hname : Script.isPluginName o.name = true)
    (h : Ran (create o) w s (.error (.exit code)) s') :
    code = 0 ∧ s'.tree = s.tree ∨
      code = 1 ∧ (¬ Occupied w s.tree o.directory ∧ s'.tree = s.tree ∨
        Occupied w s.tree o.directory ∧ Cleared w o s.tree s'.tree) ∧
        ∃ k : Kind, ¬ Occupied w s'.tree (w.templates.child k.key) := by
  unfold create at h
  rw [if_pos hname] at h
  rcases (talks_pickKind o).exit_bind h with hgiven | ⟨k, s₁, h₁, hrest₁⟩
  · exact .inl hgiven
  rw [← h₁]
  rcases (talks_print _).exit_bind hrest₁ with hgiven | ⟨_, s₂, h₂, hrest₂⟩
  · exact .inl hgiven
  rw [← h₂]
  rcases (talks_invite _).exit_bind hrest₂ with hgiven | ⟨_, s₃, h₃, hrest₃⟩
  · exact .inl hgiven
  rw [← h₃]
  rcases (talks_askFacts o k).exit_bind hrest₃ with hgiven | ⟨f, s₄, h₄, hrest₄⟩
  · exact .inl hgiven
  rw [← h₄]
  rcases ran_bind hrest₄ with ⟨_, s₅, hroom, hinstall⟩ | ⟨stop, hstop, hroom⟩
  · obtain ⟨rfl, htree, hmissing⟩ := exit_install hinstall
    have hcleared := completes_makeRoom hroom
    rw [← htree] at hmissing hcleared
    exact .inr ⟨rfl, hcleared, k, hmissing⟩
  · cases hstop
    exact .inl (exit_makeRoom hroom)

theorem exit_create_of_bad_name {code : Nat} (hname : Script.isPluginName o.name = false)
    (h : Ran (create o) w s (.error (.exit code)) s') : code = 1 ∧ s'.tree = s.tree := by
  unfold create at h
  rw [if_neg (by rw [hname]; exact Bool.false_ne_true)] at h
  rcases ran_bind h with ⟨_, s₁, hsay, hexit⟩ | ⟨stop, hstop, hsay⟩
  · cases hexit
    exact ⟨rfl, completes_sayAll hsay⟩
  · cases hstop
    exact ((steady_sayAll _).stops _ _ _ _ hsay).elim

/-! ### What is lost -/

theorem prune_ne {t : Tree} {place : List Text} {e : Entry} (hplace : place ≠ []) (h : t.find? place = some e) :
    t.prune place ≠ t := by
  rw [Tree.find?, if_neg (by simpa using hplace), Option.map_eq_some_iff] at h
  obtain ⟨entry, hentry, -⟩ := h
  have hmem := List.mem_of_find?_eq_some hentry
  have hplaced : entry.1 = place := by simpa using List.find?_some hentry
  intro heq
  rw [← heq, Tree.prune] at hmem
  have hgone := (List.mem_filter.mp hmem).2
  rw [hplaced, List.isPrefixOf_iff_prefix.mpr List.prefix_rfl] at hgone
  cases hgone

theorem Cleared.ne {t t' : Tree} (hname : Script.isPluginName o.name = true) (h : Cleared w o t t') : t' ≠ t := by
  obtain ⟨-, -, place, hlocate, hfind, rfl⟩ := h
  obtain ⟨base, -, rfl⟩ := Tree.locate_child (Script.plainPart_of_isPluginName hname) hlocate
  exact prune_ne (by simp) hfind

/-- **A creation that exits** leaves all files as they are, unless a template is missing (which gives the exit code one
under a good name) and something was in the place of the new plugin; somebody has confirmed that this may be replaced,
and it is gone. -/
theorem create_exit_tree {arguments : List Text} {r : Reading} {code : Nat}
    (hr : request arguments = .command .create r)
    (h : Ran (runArguments arguments) w s (.error (.exit code)) s') :
    (s'.tree = s.tree ↔
      ¬ (Script.isPluginName (orderOf r).name = true ∧ code = 1 ∧ Occupied w s.tree (orderOf r).directory)) ∧
    (s'.tree ≠ s.tree → Cleared w (orderOf r) s.tree s'.tree ∧
      ∃ k : Kind, ¬ Occupied w s'.tree (w.templates.child k.key)) := by
  have hkept : ∀ {lost : Prop}, s'.tree = s.tree → ¬ lost → (s'.tree = s.tree ↔ ¬ lost) ∧
      (s'.tree ≠ s.tree → Cleared w (orderOf r) s.tree s'.tree ∧
        ∃ k : Kind, ¬ Occupied w s'.tree (w.templates.child k.key)) :=
    fun htree hlost => ⟨iff_of_true htree hlost, fun hne => absurd htree hne⟩
  rcases (talks_sayAll bannerLines).exit_bind h with ⟨rfl, htree⟩ | ⟨_, s₁, h₁, hrun⟩
  · exact hkept htree (fun hlost => absurd hlost.2.1 (by decide))
  rw [hr] at hrun
  rw [← h₁] at hkept ⊢
  cases hname : Script.isPluginName (orderOf r).name with
  | false =>
    exact hkept (exit_create_of_bad_name hname hrun).2 (fun hlost => absurd hlost.1 Bool.false_ne_true)
  | true =>
    rcases exit_create hname hrun with ⟨rfl, htree⟩ | ⟨rfl, ⟨hfree, htree⟩ | ⟨hthere, hcleared⟩, hmissing⟩
    · exact hkept htree (fun hlost => absurd hlost.2.1 (by decide))
    · exact hkept htree (fun hlost => hfree hlost.2.2)
    · exact ⟨iff_of_false (hcleared.ne hname) (not_not_intro ⟨rfl, rfl, hthere⟩), fun _ => ⟨hcleared, hmissing⟩⟩

def bareMachine (terminal : Bool) : Surroundings :=
  ⟨[], ⟨"", ["templates"]⟩, terminal, true, 2024, true, fun _ => none⟩

def withFile : Tree := (Tree.empty.put ["p"] .directory).put ["p", "keep.txt"] (.file (.text "x"))

/-- All that can be said about a new plugin, but not that it may replace something. -/
def fullArguments : List Text :=
  ["create", "p", "-t", "minimal", "--author", "A", "--description", "d", "--version-str", "1"]

theorem withFile_kept_without_terminal : ∃ r s', request fullArguments = .command .create r ∧
    Ran (runArguments fullArguments) (bareMachine false) (.start withFile []) (.error (.exit 0)) s' ∧
    s'.tree = withFile := by
  have hrequest : ∃ r, request fullArguments = .command .create r := ⟨_, rfl⟩
  obtain ⟨r, hr⟩ := hrequest
  have hran : ∃ s', Ran (runArguments fullArguments) (bareMachine false) (.start withFile []) (.error (.exit 0)) s' :=
    ⟨_, rfl⟩
  obtain ⟨s', h⟩ := hran
  exact ⟨r, s', hr, h, (create_exit_tree hr h).1.mpr fun hlost => absurd hlost.2.1 (by decide)⟩

/-- The file is gone after a consent, although no plugin takes its place. -/
theorem withFile_lost_without_template : ∃ s',
    Ran (runArguments fullArguments) (bareMachine true) (.start withFile ["y"]) (.error (.exit 1)) s' ∧
    s'.tree.find? ["p", "keep.txt"] = none ∧ withFile.find? ["p", "keep.txt"] = some (.file (.text "x")) :=
  ⟨_, rfl, rfl, rfl⟩

end PluginKit.Template
