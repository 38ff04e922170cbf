import PluginKit.Proofs.Template.Abandoned
import PluginKit.Proofs.Template.Planted

/-!
# Plugins that are installed

After a template is planted its manifest is updated, and a fault of the update is only mentioned. So the update touches
the manifest alone, and not even that if it cannot be read as JSON (`completes_refreshManifest`). What a creation that
completes has done is said once, for every proper tree and every order (`completes_create`).
-/

namespace PluginKit.Template

open Console Files

variable {w : Surroundings} {s s' : Session} {u : Unit} {f : Facts} {p : Path} {target : List Text}
variable {k : Kind} {yes : Bool} {default question : Text} {given : Option Text}

/-! ### The manifest -/

/-- What the update of a manifest has done when it ends, completed or not. -/
theorem ran_updateManifest {manifest : Path} {place : List Text} {r : Except Stop Unit}
    (hname : manifest.name = Package.manifestName) (hlocate : s.tree.locate w.directory manifest = .ok place)
    (h : Ran (updateManifest f manifest) w s r s') :
    (∃ c text new, s.tree.find? place = some (.file c) ∧ c.read = .ok text ∧ f.rewritten? text = some new ∧
        s'.tree = s.tree.put place (.file (.text new))) ∨
      s'.tree = s.tree ∧
        ∀ c text, s.tree.find? place = some (.file c) → c.read = .ok text → f.rewritten? text = none := by
  rcases ran_bind h with ⟨text, s₁, hread, hrest⟩ | ⟨stop, -, hread⟩
  · -- The manifest is a text.
    obtain ⟨⟨place', c, hsame, hfind, hc⟩, rfl⟩ := completes_readText_iff.mp hread
    rw [hlocate] at hsame
    cases hsame
    have hnone (h : f.rewritten? text = none) :
        ∀ c text, s₁.tree.find? place = some (.file c) → c.read = .ok text → f.rewritten? text = none := by
      intro c' text' hfind' hc'
      rw [hfind] at hfind'
      cases hfind'
      rw [hc] at hc'
      cases hc'
      exact h
    cases hjson : Json.read text with
    | error e =>
      rw [hjson] at hrest
      refine .inr ⟨keepsTree_fail _ _ _ _ _ hrest, hnone ?_⟩
      rw [Facts.rewritten?, hjson]
    | ok value =>
      rw [hjson] at hrest
      rcases ran_bind hrest with ⟨new, s₂, hlift, hwrite⟩ | ⟨stop, -, hlift⟩
      · obtain ⟨hupdate, rfl⟩ := completes_lift_iff.mp hlift
        refine .inl ⟨c, text, List.flatten ((Package.jsonFile Package.manifestName new).files.map (·.2)), hfind, hc, ?_, ?_⟩
        · rw [Facts.rewritten?, hjson]
          simp only [hupdate]
        · have hfree : s₁.tree.find? place ≠ some .directory := by
            rw [hfind]
            exact fun he => by cases he
          rw [← hname]
          rcases ran_bind hwrite with ⟨_, s₃, hfirst, hlast⟩ | ⟨stop, -, hfirst⟩
          · obtain ⟨-, rfl⟩ := (completes_writeFile_of hlocate hfree).unique hfirst
            split at hlast
            · exact keepsTree_fail _ _ _ _ _ hlast
            · exact keepsTree_pure _ _ _ _ _ hlast
          · have hboth := (completes_writeFile_of hlocate hfree).symm.trans hfirst
            cases hboth
      · refine .inr ⟨keepsTree_lift _ _ _ _ _ hlift, hnone ?_⟩
        cases hupdate : f.update value with
        | ok new =>
          rw [hupdate] at hlift
          cases hlift
        | error e =>
          rw [Facts.rewritten?, hjson]
          simp only [hupdate]
  · -- Nothing can be read.
    refine .inr ⟨(looks_readText _).keepsTree _ _ _ _ hread, ?_⟩
    intro c text hfind hc
    have hreads : Completes (Session.readText manifest) w s text s :=
      completes_readText_iff.mpr ⟨⟨place, c, hlocate, hfind, hc⟩, rfl⟩
    have hboth := hreads.symm.trans hread
    cases hboth

theorem plainPart_manifestName : Tree.PlainPart Package.manifestName := by
  have hplain : Path.ofText Package.manifestName = ⟨"", [Package.manifestName]⟩ ∧ Package.manifestName ≠ Path.back := by
    decide +kernel
  exact ⟨hplain.1, hplain.2⟩

/-- **The update of the manifest** changes the manifest alone, if it is a text that can be updated. -/
theorem completes_refreshManifest (hleads : s.tree.LeadsTo w.directory p target)
    (h : Completes (refreshManifest f p) w s u s') :
    (∃ c text new, s.tree.find? (target ++ [Package.manifestName]) = some (.file c) ∧ c.read = .ok text ∧
        f.rewritten? text = some new ∧
        s'.tree = s.tree.put (target ++ [Package.manifestName]) (.file (.text new))) ∨
      s'.tree = s.tree ∧ ∀ place c text, s.tree.locate w.directory (p.child Package.manifestName) = .ok place →
        s.tree.find? place = some (.file c) → c.read = .ok text → f.rewritten? text = none := by
  obtain ⟨there, s₁, hthere, hrest⟩ := completes_bind_iff.mp h
  obtain ⟨hoccupied, rfl⟩ := completes_exists? hthere
  split at hrest
  · next hyes =>
    obtain ⟨outcome, s₂, hattempt, hlast⟩ := completes_bind_iff.mp hrest
    have htree : s'.tree = s₂.tree := by
      split at hlast
      · rw [(completes_pure_iff.mp hlast).2]
      · exact completes_say hlast
    obtain ⟨r, hran⟩ : ∃ r, Ran (updateManifest f (p.child Package.manifestName)) w s₁ r s₂ := by
      rcases ran_attempt hattempt with ⟨a, hran, -⟩ | ⟨e, hran, -⟩ | ⟨stop, hran, -⟩
      · exact ⟨_, hran⟩
      · exact ⟨_, hran⟩
      · exact ⟨_, hran⟩
    obtain ⟨place, e, hlocate, -⟩ := hoccupied.mp hyes
    have hplace : place = target ++ [Package.manifestName] := by
      obtain ⟨base, hbase, hplace⟩ := Tree.locate_child plainPart_manifestName hlocate
      rw [hplace, Tree.LeadsTo.unique hbase hleads]
    have hname : (p.child Package.manifestName).name = Package.manifestName := by
      rw [Tree.child_eq plainPart_manifestName, Path.name, List.getLast?_concat, Option.getD_some]
    rw [htree, ← hplace]
    rcases ran_updateManifest hname hlocate hran with hwritten | ⟨hsame, hnone⟩
    · exact .inl hwritten
    · refine .inr ⟨hsame, fun place' c text hlocate' => ?_⟩
      rw [hlocate] at hlocate'
      cases hlocate'
      exact hnone c text
  · next hno =>
    obtain ⟨-, rfl⟩ := completes_pure_iff.mp hrest
    refine .inr ⟨rfl, fun place c text hlocate hfind _ => ?_⟩
    exact absurd (hoccupied.mpr ⟨place, _, hlocate, hfind⟩) hno

/-! ### The whole plugin -/

/-- What a creation makes of the manifest of a template: a text is filled and updated, anything else stays. -/
def Facts.manifestEntry (f : Facts) : Entry → Entry
  | .directory => .directory
  | .file c =>
    match c.read with
    | .ok text => .file (.text (f.refreshed (f.fill text)))
    | .error _ => .file c

section
variable {e : Entry} {c : Content} {text : Text}

theorem exists_of_fillEntry (h : f.fillEntry e = .file c) (hread : c.read = .ok text) :
    ∃ c₀ text₀, e = .file c₀ ∧ c₀.read = .ok text₀ ∧ c = .text (f.fill text₀) ∧ text = Text.foldNewlines (f.fill text₀) := by
  cases e with
  | directory => cases h
  | file c₀ =>
    have hc : f.fillContent c₀ = c := Entry.file.inj h
    unfold Facts.fillContent at hc
    split at hc
    · next text₀ hread₀ =>
      subst hc
      exact ⟨c₀, text₀, rfl, hread₀, rfl, (Except.ok.inj hread).symm⟩
    · next hfault =>
      subst hc
      rw [hfault] at hread
      cases hread

theorem manifestEntry_of_rewritten {new : Text} (h : f.fillEntry e = .file c) (hread : c.read = .ok text)
    (hnew : f.rewritten? text = some new) : f.manifestEntry e = .file (.text new) := by
  obtain ⟨c₀, text₀, rfl, hread₀, -, rfl⟩ := exists_of_fillEntry h hread
  rw [Facts.manifestEntry]
  simp only [hread₀]
  rw [Facts.refreshed, hnew, Option.getD_some]

theorem manifestEntry_of_kept (h : ∀ c text, f.fillEntry e = .file c → c.read = .ok text → f.rewritten? text = none) :
    f.manifestEntry e = f.fillEntry e := by
  cases e with
  | directory => rfl
  | file c =>
    rw [Facts.manifestEntry, Facts.fillEntry, Facts.fillContent]
    cases hread : c.read with
    | error e => rfl
    | ok text =>
      have hkept := h (.text (f.fill text)) _ (by rw [Facts.fillEntry, Facts.fillContent, hread]) rfl
      simp only [Facts.refreshed, hkept, Option.getD_none]

end

/-- The directory of a plugin holds the filled image of a template with an updated manifest. -/
structure Installed (w : Surroundings) (p : Path) (f : Facts) (source target : List Text) (t t' : Tree) : Prop where
  located : t'.locate w.directory p = .ok target
  directory : t'.find? target = some .directory
  image : ∀ parts, parts ≠ [] → parts ≠ [Package.manifestName] →
    t'.find? (target ++ parts) = (t.find? (source ++ parts)).map f.fillEntry
  manifest : t'.find? (target ++ [Package.manifestName])
    = (t.find? (source ++ [Package.manifestName])).map f.manifestEntry
  reached : ∀ parts c text, parts ≠ [] → t.find? (source ++ parts) = some (.file c) → c.read = .ok text →
    t'.locate w.directory ⟨p.root, p.parts ++ parts⟩ = .ok (target ++ parts)
  frame : ∀ q, ¬ target <+: q → t'.find? q = t.find? q ∨ t.find? q = none ∧ t'.find? q = some .directory ∧
    ∃ parts, parts <+: p.parts ∧ t'.LeadsTo w.directory ⟨p.root, parts⟩ q

theorem append_manifestName_ne {parts : List Text} (h : parts ≠ [Package.manifestName]) :
    target ++ parts ≠ target ++ [Package.manifestName] := fun heq => h (List.append_cancel_left heq)

theorem installed_of_planted {source : List Text} {t : Tree} (h : Planted w p f source target t s.tree)
    (hreached : ∀ parts c text, parts ≠ [] → t.find? (source ++ parts) = some (.file c) → c.read = .ok text →
      s.tree.locate w.directory ⟨p.root, p.parts ++ parts⟩ = .ok (target ++ parts))
    (hrefresh : Completes (refreshManifest f p) w s u s') : Installed w p f source target t s'.tree := by
  have hmanifest := h.image [Package.manifestName] (List.cons_ne_nil _ _)
  rcases completes_refreshManifest (Tree.leadsTo_of_locate h.located) hrefresh with
    ⟨c, text, new, hfind, hread, hnew, htree⟩ | ⟨htree, hkept⟩
  · -- The manifest was written again.
    have hfree : s.tree.find? (target ++ [Package.manifestName]) ≠ some .directory := by
      rw [hfind]
      exact fun he => by cases he
    rw [htree]
    refine ⟨Tree.locate_put hfree h.located, ?_, ?_, ?_, ?_, ?_⟩
    · rw [Tree.find?_put_of_ne (by simp), h.directory]
    · intro parts hparts hother
      rw [Tree.find?_put_of_ne (append_manifestName_ne hother), h.image parts hparts]
    · rw [Tree.find?_put_self (by simp)]
      rw [hfind] at hmanifest
      obtain ⟨e, he, hfill⟩ := Option.map_eq_some_iff.mp hmanifest.symm
      rw [he, Option.map_some, manifestEntry_of_rewritten hfill hread hnew]
    · intro parts c text hparts hpart hc
      exact Tree.locate_put hfree (hreached parts c text hparts hpart hc)
    · intro q hq
      have hne : q ≠ target ++ [Package.manifestName] := fun heq => hq (heq ▸ List.prefix_append _ _)
      rw [Tree.find?_put_of_ne hne]
      rcases h.frame q hq with hsame | ⟨hnone, hnew, way, hway, hleads⟩
      · exact .inl hsame
      · exact .inr ⟨hnone, hnew, way, hway, hleads.put hfree⟩
  · -- Nothing was written.
    rw [htree]
    refine ⟨h.located, h.directory, fun parts hparts _ => h.image parts hparts, ?_, hreached, h.frame⟩
    rw [hmanifest]
    cases he : t.find? (source ++ [Package.manifestName]) with
    | none => rfl
    | some e =>
      rw [he] at hmanifest
      refine congrArg some (manifestEntry_of_kept fun c text hfill hread => ?_).symm
      obtain ⟨c₀, text₀, rfl, hread₀, -⟩ := exists_of_fillEntry hfill hread
      have hlocate := hreached _ c₀ text₀ (List.cons_ne_nil _ _) he hread₀
      rw [← Tree.child_eq plainPart_manifestName] at hlocate
      exact hkept _ c text hlocate (hmanifest.trans (congrArg some hfill)) hread

/-- **What is installed** is an image of the template. -/
theorem completes_install (ht : s.tree.Proper) (hparts : p.parts ≠ [])
    (h : Completes (install k f p) w s u s') :
    ∃ source target, s.tree.locate w.directory (w.templates.child k.key) = .ok source ∧
      s.tree.find? source = some .directory ∧ Installed w p f source target s.tree s'.tree := by
  obtain ⟨w', s₁, hread, hrest⟩ := completes_bind_iff.mp h
  obtain ⟨rfl, rfl⟩ := completes_read_iff.mp hread
  obtain ⟨there, s₂, hthere, hlast⟩ := completes_bind_iff.mp hrest
  obtain ⟨-, rfl⟩ := completes_exists? hthere
  split at hlast
  · obtain ⟨_, s₃, hplant, hmore⟩ := completes_bind_iff.mp hlast
    obtain ⟨source, target, hsource, hdirectory, hplanted, hreached⟩ := completes_plant ht hparts hplant
    obtain ⟨_, s₄, hrefresh, hannounce⟩ := completes_bind_iff.mp hmore
    have hinstalled := installed_of_planted hplanted hreached hrefresh
    refine ⟨source, target, hsource, hdirectory, ?_⟩
    -- What is announced afterwards changes no file.
    obtain ⟨_, s₅, hsay₁, hrest₁⟩ := completes_bind_iff.mp hannounce
    obtain ⟨_, s₆, hsay₂, hrest₂⟩ := completes_bind_iff.mp hrest₁
    obtain ⟨entries, s₇, hbelow, hrest₃⟩ := completes_bind_iff.mp hrest₂
    obtain ⟨_, s₈, hlist, hsteps⟩ := completes_bind_iff.mp hrest₃
    have htree : s₆.tree = s₄.tree := (completes_say hsay₂).trans (completes_say hsay₁)
    obtain ⟨-, rfl⟩ := (completes_below_iff (htree ▸ hinstalled.located)).mp hbelow
    rw [completes_sayAll hsteps, completes_sayAll hlist, htree]
    exact hinstalled
  · obtain ⟨_, s₃, -, hexit⟩ := completes_bind_iff.mp hlast
    cases hexit

/-! ### Orders -/

/-- Where a text comes from: it was given, or it is the default, or somebody typed it. -/
inductive Answer (w : Surroundings) (yes : Bool) (given : Option Text) (default : Text) : Text → Prop
  | given {text : Text} (h : given = some text) (hne : text ≠ []) : Answer w yes given default text
  | default (h : given.getD [] = []) : Answer w yes given default default
  | typed {line : Text} (h : given.getD [] = []) (hasked : w.terminal = true ∧ yes = false)
      (hne : Text.trim Text.isBlank line ≠ []) : Answer w yes given default (Text.trim Text.isBlank line)

theorem Answer.eq_of_given {text given : Text} (h : Answer w yes (some given) default text)
    (hne : given ≠ []) : text = given := by
  cases h with
  | given h _ => exact (Option.some.inj h).symm
  | default h => exact absurd h hne
  | typed h _ _ => exact absurd h hne

theorem Answer.ne_nil {text : Text} (h : Answer w yes given default text) (hne : default ≠ []) : text ≠ [] := by
  cases h with
  | given _ h => exact h
  | default _ => exact hne
  | typed _ _ h => exact h

theorem completes_askLine {answer : Text} (h : Completes (askLine question) w s answer s') :
    ∃ line, answer = Text.trim Text.isBlank line := by
  obtain ⟨_, s₁, -, hrest⟩ := completes_bind_iff.mp h
  obtain ⟨line?, s₂, -, hlast⟩ := completes_bind_iff.mp hrest
  split at hlast
  · next line => exact ⟨line, (completes_pure_iff.mp hlast).1.symm⟩
  · obtain ⟨_, s₃, -, hexit⟩ := completes_bind_iff.mp hlast
    cases hexit

theorem answer_askText {text : Text} (hgiven : given.getD [] = [])
    (h : Completes (askText question default yes) w s text s') : Answer w yes given default text := by
  obtain ⟨quiet, s₁, hquiet, hrest⟩ := completes_bind_iff.mp h
  obtain ⟨w', s₂, hread, hpure⟩ := completes_bind_iff.mp hquiet
  obtain ⟨rfl, rfl⟩ := completes_read_iff.mp hread
  obtain ⟨rfl, rfl⟩ := completes_pure_iff.mp hpure
  split at hrest
  · rw [← (completes_pure_iff.mp hrest).1]
    exact .default hgiven
  · next hasked =>
    obtain ⟨answer, s₃, hanswer, hlast⟩ := completes_bind_iff.mp hrest
    obtain ⟨line, rfl⟩ := completes_askLine hanswer
    obtain ⟨rfl, -⟩ := completes_pure_iff.mp hlast
    split
    · exact .default hgiven
    · next hne =>
      refine .typed hgiven ?_ fun hnil => hne (by rw [hnil]; rfl)
      simpa [and_comm] using hasked

theorem answer_givenOr {text : Text}
    (h : Completes (givenOr given question default yes) w s text s') : Answer w yes given default text := by
  unfold givenOr at h
  split at h
  · next given =>
    split at h
    · next hempty =>
      exact answer_askText (List.isEmpty_iff.mp hempty) h
    · next hne =>
      obtain ⟨rfl, -⟩ := completes_pure_iff.mp h
      exact .given rfl fun hnil => hne (List.isEmpty_iff.mpr hnil)
  · exact answer_askText rfl h

/-- The facts of a plugin are those of the order, as far as it gives them. -/
structure Order.Settled (o : Order) (w : Surroundings) (k : Kind) (f : Facts) : Prop where
  kind : ∀ given, o.kind = some given → k = given
  name : f.name = o.name
  author : Answer w o.yes o.author "未知作者" f.author
  description : Answer w o.yes o.description ("一个使用 " ++ k.key ++ " 模板创建的麦麦插件") f.description
  version : Answer w o.yes o.version "1.0.0" f.version
  year : f.year = w.year

theorem completes_pickKind {o : Order} {given : Kind} (h : Completes (pickKind o) w s k s')
    (hgiven : o.kind = some given) : k = given := by
  unfold pickKind at h
  rw [hgiven] at h
  exact (completes_pure_iff.mp h).1.symm

/-- **What a creation has done** when it completes, in a place where nothing was. -/
theorem completes_create {o : Order} (ht : s.tree.Proper) (hfresh : ¬ Occupied w s.tree o.directory)
    (h : Completes (create o) w s u s') :
    Script.isPluginName o.name = true ∧ ∃ k f source target, o.Settled w k f ∧
      s.tree.locate w.directory (w.templates.child k.key) = .ok source ∧ s.tree.find? source = some .directory ∧
      Installed w o.directory f source target s.tree s'.tree := by
  unfold create at h
  split at h
  · next hname =>
    obtain ⟨k, s₁, hkind, h₁⟩ := completes_bind_iff.mp h
    obtain ⟨_, s₂, hsay, h₂⟩ := completes_bind_iff.mp h₁
    obtain ⟨_, s₃, hinvite, h₃⟩ := completes_bind_iff.mp h₂
    obtain ⟨f, s₄, hfacts, h₄⟩ := completes_bind_iff.mp h₃
    obtain ⟨_, s₅, hroom, hinstall⟩ := completes_bind_iff.mp h₄
    have htree : s₄.tree = s.tree := by
      rw [(talks_askFacts o k).keeps _ _ _ _ hfacts, (talks_invite _).keeps _ _ _ _ hinvite, completes_say hsay,
        (talks_pickKind o).keeps _ _ _ _ hkind]
    have hkept : s₅.tree = s.tree := by
      rw [← htree] at hfresh ⊢
      rcases completes_makeRoom hroom with ⟨-, hsame⟩ | ⟨hthere, -⟩
      · exact hsame
      · exact absurd hthere hfresh
    obtain ⟨author, s₆, hauthor, hrest₁⟩ := completes_bind_iff.mp hfacts
    obtain ⟨description, s₇, hdescription, hrest₂⟩ := completes_bind_iff.mp hrest₁
    obtain ⟨version, s₈, hversion, hrest₃⟩ := completes_bind_iff.mp hrest₂
    obtain ⟨w', s₉, hread, hpure⟩ := completes_bind_iff.mp hrest₃
    obtain ⟨rfl, rfl⟩ := completes_read_iff.mp hread
    obtain ⟨rfl, -⟩ := completes_pure_iff.mp hpure
    have hparts : o.directory.parts ≠ [] := by
      rw [Order.directory, Tree.child_eq (Script.plainPart_of_isPluginName hname)]
      simp
    rw [← hkept] at ht ⊢
    obtain ⟨source, target, hsource, hdirectory, hinstalled⟩ := completes_install ht hparts hinstall
    refine ⟨hname, k, _, source, target, ⟨fun given => completes_pickKind hkind, rfl, answer_givenOr hauthor,
      answer_givenOr hdescription, answer_givenOr hversion, rfl⟩, hsource, hdirectory, hinstalled⟩
  · obtain ⟨_, s₁, -, hexit⟩ := completes_bind_iff.mp h
    cases hexit

theorem completes_run_create {arguments : List Text} {r : Reading} (hr : request arguments = .command .create r)
    (ht : s.tree.Proper) (hfresh : ¬ Occupied w s.tree (orderOf r).directory)
    (h : Completes (runArguments arguments) w s u s') :
    Script.isPluginName (orderOf r).name = true ∧ ∃ k f source target, (orderOf r).Settled w k f ∧
      s.tree.locate w.directory (w.templates.child k.key) = .ok source ∧ s.tree.find? source = some .directory ∧
      Installed w (orderOf r).directory f source target s.tree s'.tree := by
  obtain ⟨_, s₁, hbanner, hrun⟩ := completes_bind_iff.mp h
  have htree := completes_sayAll hbanner
  rw [hr] at hrun
  rw [← htree] at ht hfresh ⊢
  exact completes_create ht hfresh hrun

end PluginKit.Template
