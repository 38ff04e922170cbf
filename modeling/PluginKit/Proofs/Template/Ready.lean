import PluginKit.Proofs.Template.Installed

/-!
# Creations that complete

A creation for which everything is given completes if the template can be copied to the directory of the plugin and what
is copied can be reached and named there (`Ready`), and if the facts can be written (`Ready.completes_create`). A
manifest that is no JSON after it was filled is no obstacle: the fault of its update is only mentioned.
-/

namespace PluginKit.Template

open Console Files List
open Json (encodable_message)

variable {w : Surroundings} {s s' : Session} {f : Facts} {p : Path} {target : List Text} {t t' : Tree} {k : Kind}
  {o : Order}

/-! ### Orders that give everything -/

structure Order.Gives (o : Order) (w : Surroundings) (k : Kind) (f : Facts) : Prop where
  kind : o.kind = some k
  name : f.name = o.name
  author : o.author = some f.author
  description : o.description = some f.description
  version : o.version = some f.version
  present : f.author ≠ [] ∧ f.description ≠ [] ∧ f.version ≠ []
  year : f.year = w.year

theorem Order.Gives.eq_of_settled {k' : Kind} {f' : Facts} (h : o.Gives w k f) (h' : o.Settled w k' f') :
    k' = k ∧ f' = f := by
  have hauthor := h'.author
  have hdescription := h'.description
  have hversion := h'.version
  rw [h.author] at hauthor
  rw [h.description] at hdescription
  rw [h.version] at hversion
  refine ⟨h'.kind k h.kind, ?_⟩
  cases f with | mk name description version author year =>
  cases f' with | mk name' description' version' author' year' =>
  rw [Facts.mk.injEq]
  exact ⟨h'.name.trans h.name.symm, hdescription.eq_of_given h.present.2.1, hversion.eq_of_given h.present.2.2,
    hauthor.eq_of_given h.present.1, h'.year.trans h.year.symm⟩

theorem completes_givenOr_of {given question default : Text} {yes : Bool} (h : given ≠ []) :
    Completes (givenOr (some given) question default yes) w s given s := by
  unfold givenOr
  dsimp only
  rw [if_neg (fun hempty => h (List.isEmpty_iff.mp hempty))]
  rfl

theorem Order.Gives.completes_askFacts (h : o.Gives w k f) : Completes (askFacts o k) w s f s := by
  unfold askFacts
  rw [h.author, h.description, h.version, ← h.name]
  refine Completes.bind (completes_givenOr_of h.present.1) ?_
  refine Completes.bind (completes_givenOr_of h.present.2.1) ?_
  refine Completes.bind (completes_givenOr_of h.present.2.2) ?_
  refine Completes.bind (completes_read_iff.mpr ⟨rfl, rfl⟩) ?_
  rw [← h.year]
  rfl

/-! ### Room for the plugin -/

/-- There is room for a plugin, and its template can be copied there. -/
structure Ready (w : Surroundings) (k : Kind) (p : Path) (t t' : Tree) (target : List Text) : Prop where
  vacant : t.locate w.directory p = .error .missing ∨ ∃ place, t.locate w.directory p = .ok place ∧ t.find? place = none
  copies : ∀ s, s.tree = t → Completes (Session.copyTree (w.templates.child k.key) p) w s () { s with tree := t' }
  located : t'.locate w.directory p = .ok target
  reached : ∀ x ∈ t'.below target,
    t'.locate w.directory ⟨p.root, p.parts ++ x.1⟩ = .ok (target ++ x.1) ∧ Encodable (x.1.getLast?.getD [])
  named : Encodable p.text

theorem completes_exists?_of_vacant (h : s.tree.locate w.directory p = .error .missing ∨
    ∃ place, s.tree.locate w.directory p = .ok place ∧ s.tree.find? place = none) :
    Completes (Session.exists? p) w s false s := by
  have hentry : Completes (Session.entry? p) w s none s := by
    refine Completes.bind (completes_locate?_iff.mpr ⟨rfl, rfl⟩) ?_
    rcases h with h | ⟨place, h, hfind⟩
    · rw [h]
      rfl
    · rw [h]
      refine Completes.bind (completes_get_iff.mpr ⟨rfl, rfl⟩) ?_
      rw [hfind]
      rfl
  exact Completes.bind hentry rfl

theorem Ready.not_occupied (h : Ready w k p t t' target) : ¬ Occupied w t p := by
  rintro ⟨place, e, hlocate, hfind⟩
  rcases h.vacant with hmissing | ⟨place', hlocate', hnone⟩
  · rw [hlocate] at hmissing
    cases hmissing
  · rw [hlocate] at hlocate'
    cases hlocate'
    rw [hfind] at hnone
    cases hnone

theorem Ready.copied (h : Ready w k p t t' target) (ht : t.Proper) (hparts : p.parts ≠ []) :
    ∃ source, t.locate w.directory (w.templates.child k.key) = .ok source ∧ t.find? source = some .directory ∧
      Copied w p source target t t' := by
  have hcopy := h.copies ⟨t, [], [], []⟩ rfl
  obtain ⟨source, target', hsource, hdirectory, hcopied⟩ := completes_copyTree ht hparts hcopy
  have hlocated : t'.locate w.directory p = .ok target' := hcopied.located
  rw [h.located] at hlocated
  cases hlocated
  exact ⟨source, hsource, hdirectory, hcopied⟩

/-! ### No new places -/

/-- Every place of the second tree is one of the first. -/
def Within (t t' : Tree) : Prop := ∀ place ∈ t'.entries.map Prod.fst, place ∈ t.entries.map Prod.fst

theorem Within.put {t₁ : Tree} {q : List Text} {e e' : Entry} (h : Within t t₁) (hq : q ≠ []) (hfind : t₁.find? q = some e) :
    Within t (t₁.put q e') := by
  intro place hplace
  have hmem : q ∈ t₁.entries.map Prod.fst := mem_map.mpr ⟨(q, e), Tree.mem_of_find? hq hfind, rfl⟩
  rw [Tree.put, Tree.keys_putIn, if_pos hmem] at hplace
  exact h place hplace

/-- What is below a place of the second tree has its counterpart in the first. -/
theorem Within.exists_mem_below {t₁ : Tree} (h : Within t t₁) (ht : t.Proper) {x : List Text × Entry}
    (hx : x ∈ t₁.below target) : ∃ e, (x.1, e) ∈ t.below target := by
  rw [Tree.below_eq, mem_insertionSort] at hx
  obtain ⟨⟨q, e⟩, hmem, rfl⟩ := mem_map.mp hx
  obtain ⟨hentry, hbelow⟩ := mem_filter.mp hmem
  rw [Bool.and_eq_true, isPrefixOf_iff_prefix, decide_eq_true_eq] at hbelow
  obtain ⟨⟨rest, rfl⟩, hlength⟩ := hbelow
  obtain ⟨⟨q, e'⟩, hmem', hq⟩ := mem_map.mp (h _ (mem_map.mpr ⟨_, hentry, rfl⟩))
  obtain rfl : q = target ++ rest := hq
  refine ⟨e', ht.mem_below_iff.mpr ⟨?_, ?_⟩⟩
  · intro hnil
    have hrest : rest = [] := drop_left.symm.trans hnil
    rw [hrest, append_nil] at hlength
    exact Nat.lt_irrefl _ hlength
  · rw [drop_left]
    exact (ht.mem_entries_iff.mp hmem').2

/-! ### Filling -/

/-- Files that can be reached are filled, if their texts can be written. -/
theorem completes_fillFiles_of (target : List Text) (entries : List (List Text × Entry)) (hwithin : Within t s.tree)
    (hreached : ∀ x ∈ entries, s.tree.locate w.directory ⟨p.root, p.parts ++ x.1⟩ = .ok (target ++ x.1))
    (hthere : ∀ x ∈ entries, ∀ c, x.2 = .file c → ∃ c', s.tree.find? (target ++ x.1) = some (.file c'))
    (hwritten : ∀ x ∈ entries, ∀ c text, x.2 = .file c → c.read = .ok text → Encodable (f.fill text)) :
    ∃ s', Completes (fillFiles f p entries) w s () s' ∧ Within t s'.tree := by
  induction entries generalizing s with
  | nil => exact ⟨s, rfl, hwithin⟩
  | cons x entries ih =>
    obtain ⟨parts, e⟩ := x
    obtain ⟨hx, hmore⟩ := forall_mem_cons.mp hreached
    obtain ⟨hfile, hfiles⟩ := forall_mem_cons.mp hthere
    obtain ⟨htext, htexts⟩ := forall_mem_cons.mp hwritten
    cases e with
    | directory => exact ih hwithin hmore hfiles htexts
    | file c =>
      unfold fillFiles
      cases hread : c.read with
      | error e => exact ih hwithin hmore hfiles htexts
      | ok text =>
        obtain ⟨c', hfind⟩ := hfile c rfl
        have hfree : s.tree.find? (target ++ parts) ≠ some .directory := by
          rw [hfind]
          exact fun he => by cases he
        have hne : target ++ parts ≠ [] := by
          intro hnil
          rw [hnil] at hfree
          exact hfree rfl
        have hwrite : Completes (Session.writeText ⟨p.root, p.parts ++ parts⟩ (f.fill text)) w s ()
            { s with tree := s.tree.put (target ++ parts) (.file (.text (f.fill text))) } :=
          completes_writeText_iff.mpr ⟨htext c text rfl hread, completes_writeFile_of hx hfree⟩
        have hstill : ∀ y ∈ entries, ∀ c, y.2 = .file c → ∃ c',
            (s.tree.put (target ++ parts) (.file (.text (f.fill text)))).find? (target ++ y.1) = some (.file c') := by
          intro y hy c hc
          by_cases heq : target ++ y.1 = target ++ parts
          · rw [heq]
            exact ⟨_, Tree.find?_put_self hne _ _⟩
          · obtain ⟨c', hc'⟩ := hfiles y hy c hc
            exact ⟨c', (Tree.find?_put_of_ne heq _ _).trans hc'⟩
        obtain ⟨s', hfill, hlast⟩ := ih (s := { s with tree := s.tree.put (target ++ parts) (.file (.text (f.fill text))) })
          (hwithin.put hne hfind) (fun y hy => Tree.locate_put hfree (hmore y hy)) hstill htexts
        exact ⟨s', Completes.bind hwrite hfill, hlast⟩

/-- A manifest with this text can be updated, or it is no JSON. -/
def Facts.Handles (f : Facts) (text : Text) : Prop :=
  (∃ v u, Json.read text = .ok v ∧ f.update v = .ok u ∧ (Package.jsonFile Package.manifestName u).fault = none) ∨
    ∃ e, Json.read text = .error (.malformed e)

/-- The facts can be put into what was copied. -/
structure Fits (f : Facts) (t' : Tree) (target : List Text) : Prop where
  name : Encodable f.name
  written : ∀ x ∈ t'.below target, ∀ c text, x.2 = .file c → c.read = .ok text → Encodable (f.fill text)
  manifest : ∃ c text, t'.find? (target ++ [Package.manifestName]) = some (.file c) ∧ c.read = .ok text ∧
    f.Handles (Text.foldNewlines (f.fill text))

/-- **A template is planted** where there is room, if its filled texts can be written. -/
theorem Ready.completes_plant (h : Ready w k p s.tree t' target) (hf : Fits f t' target) (ht : s.tree.Proper)
    (hparts : p.parts ≠ []) :
    ∃ s', Completes (plant (w.templates.child k.key) f p) w s () s' ∧ Within t' s'.tree ∧
      s'.tree.locate w.directory p = .ok target := by
  obtain ⟨source, -, -, hcopied⟩ := h.copied ht hparts
  have hbelow {x : List Text × Entry} (hx : x ∈ t'.below target) := hcopied.proper.mem_below_iff.mp hx
  obtain ⟨s₁, hsay⟩ : ∃ s₁, Completes (Session.say ("\n📁 正在创建插件目录：" ++ p.text)) w { s with tree := t' } () s₁ :=
    ⟨_, completes_say_of ((encodable_ofString _).append h.named)⟩
  have htree : s₁.tree = t' := completes_say hsay
  obtain ⟨s', hfill, hwithin⟩ : ∃ s', Completes (fillFiles f p (s₁.tree.below target)) w s₁ () s' ∧ Within t' s'.tree := by
    rw [htree]
    refine completes_fillFiles_of target (t'.below target) ?_ ?_ ?_ hf.written
    · rw [htree]
      exact fun _ hplace => hplace
    · intro x hx
      rw [htree]
      exact (h.reached x hx).1
    · intro x hx c hc
      rw [htree]
      exact ⟨c, hc ▸ (hbelow hx).2⟩
  have hlocated : s₁.tree.locate w.directory p = .ok target := by
    rw [htree]
    exact h.located
  refine ⟨s', Completes.bind (h.copies s rfl) (Completes.bind hsay (Completes.bind ?_ hfill)), hwithin, ?_⟩
  · exact completes_below_of hlocated
  · exact locate_fillFiles hfill hlocated

/-! ### The manifest -/

section
variable {manifest : Path} {place : List Text} {c : Content} {text : Text}
  (hlocate : s.tree.locate w.directory manifest = .ok place) (hfind : s.tree.find? place = some (.file c))
  (hread : c.read = .ok text)
include hlocate hfind hread

theorem completes_updateManifest {v u : Value} (hv : Json.read text = .ok v) (hu : f.update v = .ok u)
    (hfault : (Package.jsonFile manifest.name u).fault = none) : ∃ s', Completes (updateManifest f manifest) w s () s' := by
  have hfree : s.tree.find? place ≠ some .directory := by
    rw [hfind]
    exact fun he => by cases he
  refine Completes.exists_bind (completes_readText_iff.mpr ⟨⟨place, c, hlocate, hfind, hread⟩, rfl⟩) ?_
  rw [hv]
  refine Completes.exists_bind (completes_lift_iff.mpr ⟨hu, rfl⟩) ?_
  refine Completes.exists_bind (completes_writeFile_of hlocate hfree) ?_
  rw [hfault]
  exact ⟨_, rfl⟩

theorem ran_updateManifest_of_malformed {e : Json.ReadError} (he : Json.read text = .error (.malformed e)) :
    Ran (updateManifest f manifest) w s (.error (.fault (.badValue (.other (e.message text))))) s := by
  refine Completes.bind (completes_readText_iff.mpr ⟨⟨place, c, hlocate, hfind, hread⟩, rfl⟩) ?_
  rw [he]
  rfl

end

theorem completes_attempt {α : Type} {x : SessionM α} {a : α} (h : Completes x w s a s') :
    Completes (Session.attempt x) w s (.ok a) s' := by
  unfold Completes Session.attempt
  rw [run_tryCatch, run_bind, h]
  rfl

theorem completes_attempt_of_fault {α : Type} {x : SessionM α} {fault : Fault} (h : Ran x w s (.error (.fault fault)) s') :
    Completes (Session.attempt x) w s (.error fault) s' := by
  unfold Completes Session.attempt
  rw [run_tryCatch, run_bind, h]
  rfl

theorem completes_refreshManifest_of {place : List Text} {c : Content} {text : Text}
    (hlocate : s.tree.locate w.directory (p.child Package.manifestName) = .ok place)
    (hfind : s.tree.find? place = some (.file c)) (hread : c.read = .ok text) (h : f.Handles text) :
    ∃ s', Completes (refreshManifest f p) w s () s' := by
  have hthere : Completes (Session.exists? (p.child Package.manifestName)) w s true s :=
    Occupied.completes_exists? ⟨place, _, hlocate, hfind⟩
  rcases h with ⟨v, u, hv, hu, hfault⟩ | ⟨e, he⟩
  · have hname : (p.child Package.manifestName).name = Package.manifestName := by
      rw [Tree.child_eq plainPart_manifestName, Path.name, getLast?_concat, Option.getD_some]
    rw [← hname] at hfault
    obtain ⟨s', hupdate⟩ := completes_updateManifest hlocate hfind hread hv hu hfault
    exact hthere.exists_bind ((completes_attempt hupdate).exists_bind ⟨s', rfl⟩)
  · have hran := ran_updateManifest_of_malformed (f := f) hlocate hfind hread he
    refine hthere.exists_bind ((completes_attempt_of_fault hran).exists_bind ?_)
    exact ⟨_, completes_say_of ((encodable_ofString _).append (encodable_message e text))⟩

/-! ### Words at the end -/

theorem Kind.encodable_mainFile (k : Kind) : Encodable k.mainFile := by
  cases k
  all_goals exact encodable_ofString _

theorem completes_announce (hlocate : s.tree.locate w.directory p = .ok target) (hname : Encodable f.name)
    (hpath : Encodable p.text) (hbelow : ∀ x ∈ s.tree.below target, Encodable (x.1.getLast?.getD [])) :
    ∃ s', Completes (announce k f p) w s () s' := by
  have hlines : ∀ line ∈ (s.tree.below target).map fun e => listLine e.1 e.2, Encodable line := by
    intro line hline
    obtain ⟨x, hx, rfl⟩ := mem_map.mp hline
    have hicon : Encodable (if x.2.isDirectory then Text.ofString "📁" else "📄") := by split <;> simp
    simp [listLine, hicon, hbelow x hx, @encodable_times (.scalar ' ') rfl]
  have hsteps : ∀ line ∈ nextSteps k p.text, Encodable line := by simp [nextSteps, hpath, k.encodable_mainFile]
  refine (completes_say_of (by simp [hname])).exists_bind ?_
  refine (completes_say_of (encodable_ofString _)).exists_bind ?_
  refine Completes.exists_bind (completes_below_of hlocate) ?_
  obtain ⟨s₁, hlist⟩ := completes_sayAll_of hlines
  exact hlist.exists_bind (completes_sayAll_of hsteps)

/-! ### The whole creation -/

theorem Ready.completes_install (h : Ready w k p s.tree t' target) (hf : Fits f t' target) (ht : s.tree.Proper)
    (hparts : p.parts ≠ []) : ∃ s', Completes (install k f p) w s () s' := by
  obtain ⟨source, hsource, hdirectory, hcopied⟩ := h.copied ht hparts
  obtain ⟨s₁, hplant, hwithin, hlocated⟩ := h.completes_plant hf ht hparts
  obtain ⟨source', target', hsource', -, hplanted, hreached⟩ := Template.completes_plant ht hparts hplant
  rw [hsource] at hsource'
  cases hsource'
  obtain rfl : target' = target := Except.ok.inj (hplanted.located.symm.trans hlocated)
  -- The manifest is there, filled, so that its update completes.
  obtain ⟨c, text, hfind, hread, hhandles⟩ := hf.manifest
  have hpart : [Package.manifestName] ≠ ([] : List Text) := cons_ne_nil _ _
  have hshelved := hcopied.same [Package.manifestName] hpart
  rw [hfind] at hshelved
  have hmanifest : s₁.tree.find? (target' ++ [Package.manifestName]) = some (.file (.text (f.fill text))) := by
    rw [hplanted.image _ hpart, ← hshelved, Option.map_some, Facts.fillEntry, Facts.fillContent, hread]
  have hchild := hreached _ c text hpart hshelved.symm hread
  rw [← Tree.child_eq plainPart_manifestName] at hchild
  obtain ⟨s₂, hrefresh⟩ := completes_refreshManifest_of hchild hmanifest rfl hhandles
  -- No place is new after it, so that all of them can be named.
  have hstill : Within t' s₂.tree := by
    rcases completes_refreshManifest (Tree.leadsTo_of_locate hlocated) hrefresh with
      ⟨c', text', new, hfind', -, -, htree⟩ | ⟨htree, -⟩
    · rw [htree]
      exact hwithin.put (by simp) hfind'
    · rw [htree]
      exact hwithin
  have hnames : ∀ x ∈ s₂.tree.below target', Encodable (x.1.getLast?.getD []) := by
    intro x hx
    obtain ⟨e, he⟩ := hstill.exists_mem_below hcopied.proper hx
    exact (h.reached _ he).2
  obtain ⟨s₃, hannounce⟩ := completes_announce (k := k) (installed_of_planted hplanted hreached hrefresh).located hf.name
    h.named hnames
  refine Completes.exists_bind (completes_read_iff.mpr ⟨rfl, rfl⟩) ?_
  refine Completes.exists_bind (Occupied.completes_exists? ⟨source, _, hsource, hdirectory⟩) ?_
  exact ⟨s₃, Completes.bind hplant (Completes.bind hrefresh hannounce)⟩

theorem Kind.encodable_title (k : Kind) : Encodable k.title := by
  cases k
  all_goals exact encodable_ofString _

theorem completes_invite (yes : Bool) : ∃ s', Completes (invite yes) w s () s' := by
  unfold invite
  split
  · exact ⟨s, rfl⟩
  · exact ⟨_, completes_say_of (encodable_ofString _)⟩

/-- **A creation completes** if everything is given and fits. -/
theorem Ready.completes_create (h : Ready w k o.directory s.tree t' target) (hf : Fits f t' target) (ht : s.tree.Proper)
    (hname : Script.isPluginName o.name = true) (hgives : o.Gives w k f) : ∃ s', Completes (create o) w s () s' := by
  have hparts : o.directory.parts ≠ [] := by
    rw [Order.directory, Tree.child_eq (Script.plainPart_of_isPluginName hname)]
    simp
  have hkind : Completes (pickKind o) w s k s := by
    unfold pickKind
    rw [hgives.kind]
    rfl
  obtain ⟨s₁, hsay⟩ : ∃ s₁, Completes (Session.say ("\n✅ 已选择模板：" ++ k.title)) w s () s₁ :=
    ⟨_, completes_say_of ((encodable_ofString _).append k.encodable_title)⟩
  obtain ⟨s₂, hinvite⟩ := completes_invite (w := w) (s := s₁) o.yes
  have htree : s₂.tree = s.tree := ((talks_invite o.yes).keeps _ _ _ _ hinvite).trans (completes_say hsay)
  rw [← htree] at h ht
  have hroom : Completes (makeRoom o) w s₂ () s₂ := Completes.bind (completes_exists?_of_vacant h.vacant) rfl
  unfold create
  rw [if_pos hname]
  refine hkind.exists_bind (hsay.exists_bind (hinvite.exists_bind (hgives.completes_askFacts.exists_bind ?_)))
  exact hroom.exists_bind (h.completes_install hf ht hparts)

end PluginKit.Template
