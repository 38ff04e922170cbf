import PluginKit.Check.Plugin
import PluginKit.Proofs.Console.Stops

/-!
# What the check of a manifest finds

`Decides all x P` says that a step of the check that is completed gives no verdict and finds a problem, or a problem of the
manifest, exactly if `P` fails. The check of a manifest decides whether its entries are `Sound` (`decides_manifest`). For a record with the usual fields
this means that its texts are not empty and its categories exist (`sound_record_iff`).
-/

namespace PluginKit.Check

open List
open Value (str field? field?_record holds_dict item_dict)

def Problem.isAboutManifest : Problem → Bool
  | missingFile _ => false
  | badSource _ => false
  | _ => true

/-! ### Steps -/

def Passes {α : Type} (x : CheckM α) (r : Report) (a : α) (r' : Report) : Prop :=
  x.run.run r = (.ok a, r')

section
variable {α β : Type} {r r' : Report}

theorem CheckM.run_bind (x : CheckM α) (f : α → CheckM β) (r : Report) :
    (x >>= f).run.run r =
      match x.run.run r with
      | (.ok a, r₁) => (f a).run.run r₁
      | (.error e, r₁) => (.error e, r₁) := by
  show (ExceptT.bind x f) r = match x r with
    | (.ok a, r₁) => f a r₁
    | (.error e, r₁) => (.error e, r₁)
  simp only [ExceptT.bind, ExceptT.mk, bind, StateT.bind]
  obtain ⟨o, r₁⟩ := x r
  cases o <;> rfl

theorem passes_bind_iff {x : CheckM α} {f : α → CheckM β} {b : β} :
    Passes (x >>= f) r b r' ↔ ∃ a r₁, Passes x r a r₁ ∧ Passes (f a) r₁ b r' := by
  unfold Passes
  rw [CheckM.run_bind]
  cases hx : x.run.run r with | mk o r₁ =>
  cases o with
  | error e =>
    constructor
    · intro h
      cases h
    · rintro ⟨a, r₂, h, -⟩
      cases h
  | ok a =>
    constructor
    · intro h
      exact ⟨a, r₁, rfl, h⟩
    · rintro ⟨a', r₂, h, h'⟩
      cases h
      exact h'

theorem passes_lift_iff {o : Outcome α} {a : α} : Passes (lift o) r a r' ↔ o = .ok a ∧ r' = r := by
  cases o with
  | error f =>
    constructor
    · intro h
      cases h
    · rintro ⟨h, -⟩
      cases h
  | ok b =>
    constructor
    · intro h
      cases h
      exact ⟨rfl, rfl⟩
    · rintro ⟨h, rfl⟩
      cases h
      rfl

theorem passes_say_iff {line : Text} :
    Passes (say line) r () r' ↔ Encodable line ∧ r' = { r with lines := r.lines ++ [line] } := by
  rw [← checkUtf8_eq_ok_iff]
  unfold say
  cases Text.checkUtf8 line with
  | error e =>
    constructor
    · intro h
      cases h
    · rintro ⟨h, -⟩
      cases h
  | ok u =>
    constructor
    · intro h
      cases h
      exact ⟨rfl, rfl⟩
    · rintro ⟨-, rfl⟩
      rfl

end

/-! ### Verdicts -/

/-- The line begins with something, but not with the sign of a verdict. -/
def isInset : Text → Bool
  | [] => false
  | c :: _ => c != .scalar '✅' && c != .scalar '❌'

theorem isInset_append {a : Text} (h : isInset a = true) (b : Text) : isInset (a ++ b) = true := by
  cases a with
  | nil => cases h
  | cons c a => exact h

/-- The problems that count: all of them, or those of the manifest. -/
def Problem.counts (all : Bool) (p : Problem) : Bool := all || p.isAboutManifest

def Report.Clear (all : Bool) (r : Report) : Prop := ∀ p ∈ r.problems, p.counts all = false

def Report.append (r d : Report) : Report := ⟨r.lines ++ d.lines, r.problems ++ d.problems, r.advice ++ d.advice⟩

theorem Report.append_empty (r : Report) : r.append .empty = r := by simp [append, empty]

theorem Report.append_assoc (r d e : Report) : (r.append d).append e = r.append (d.append e) := by simp [append]

/-- What a completed step adds to the report gives no verdict, and holds a problem that counts exactly if the property
fails. -/
def Decides (all : Bool) (x : CheckM Unit) (P : Prop) : Prop :=
  ∀ r r', Passes x r () r' → ∃ d : Report, r' = r.append d ∧ (∀ line ∈ d.lines, isInset line = true) ∧ (d.Clear all ↔ P)

section
variable {α : Type} {all : Bool} {P Q : Prop} {x y : CheckM Unit} {p : Problem} {line : Text}

theorem Decides.congr (h : Decides all x P) (hPQ : P ↔ Q) : Decides all x Q := by
  intro r r' hpass
  obtain ⟨d, hd, hlines, hclear⟩ := h r r' hpass
  exact ⟨d, hd, hlines, hclear.trans hPQ⟩

theorem decides_pure : Decides all (pure ()) True := by
  intro r r' h
  cases h
  exact ⟨.empty, r.append_empty.symm, nofun, iff_of_true nofun trivial⟩

theorem decides_say (hline : isInset line = true) : Decides all (say line) True := by
  intro r r' h
  obtain ⟨-, rfl⟩ := passes_say_iff.mp h
  exact ⟨⟨[line], [], []⟩, by simp [Report.append], forall_mem_singleton.mpr hline, iff_of_true nofun trivial⟩

theorem decides_advise (a : Advice) : Decides all (advise a) True := by
  intro r r' h
  cases h
  exact ⟨⟨[], [], [a]⟩, by simp [Report.append], nofun, iff_of_true nofun trivial⟩

theorem decides_blame (p : Problem) : Decides all (blame p) (p.counts all = false) := by
  intro r r' h
  cases h
  exact ⟨⟨[], [p], []⟩, by simp [Report.append], nofun, forall_mem_singleton⟩

theorem Decides.seq (hx : Decides all x P) (hy : Decides all y Q) : Decides all (x >>= fun _ => y) (P ∧ Q) := by
  intro r r' h
  obtain ⟨u, r₁, hfirst, hrest⟩ := passes_bind_iff.mp h
  obtain ⟨d, rfl, hlines, hclear⟩ := hx _ _ hfirst
  obtain ⟨e, rfl, hlines', hclear'⟩ := hy _ _ hrest
  refine ⟨d.append e, r.append_assoc d e, forall_mem_append.mpr ⟨hlines, hlines'⟩, ?_⟩
  rw [← hclear, ← hclear']
  exact forall_mem_append

theorem decides_blame_manifest (hp : p.isAboutManifest = true) : Decides all (blame p) False :=
  (decides_blame p).congr (by simp [Problem.counts, hp])

theorem decides_blame_say (hp : p.isAboutManifest = true) (hline : isInset line = true) :
    Decides all (blame p >>= fun _ => say line) False :=
  ((decides_blame_manifest hp).seq (decides_say hline)).congr (iff_of_eq (false_and _))

theorem decides_lift_bind {o : Outcome α} {f : α → CheckM Unit} (h : ∀ a, o = .ok a → Decides all (f a) P) :
    Decides all (lift o >>= f) P := by
  intro r r' hpass
  obtain ⟨a, r₁, hlift, hrest⟩ := passes_bind_iff.mp hpass
  obtain ⟨ho, rfl⟩ := passes_lift_iff.mp hlift
  exact h a ho _ _ hrest

theorem decides_each {step : α → CheckM Unit} {p : α → Prop} {items : List α}
    (h : ∀ a ∈ items, Decides all (step a) (p a)) : Decides all (each step items) (∀ a ∈ items, p a) := by
  induction items with
  | nil => exact decides_pure.congr (by simp)
  | cons a items ih =>
    obtain ⟨ha, hitems⟩ := forall_mem_cons.mp h
    exact (ha.seq (ih hitems)).congr forall_mem_cons.symm

theorem Decides.problems_eq_iff {r r' : Report} (h : Decides true x P) (hpass : Passes x r () r') :
    r'.problems = r.problems ↔ P := by
  obtain ⟨d, rfl, -, hclear⟩ := h r r' hpass
  rw [← hclear]
  show r.problems ++ d.problems = r.problems ↔ ∀ p ∈ d.problems, true = false
  rw [append_right_eq_self]
  simp [eq_nil_iff_forall_not_mem]

end

/-! ### Fields -/

theorem encodable_requiredFields : ∀ key ∈ requiredFields, Encodable key := by
  simp [requiredFields]

theorem encodable_recommendedFields : ∀ key ∈ recommendedFields, Encodable key := by
  simp [recommendedFields]

section
variable {all : Bool} {entries : List (Value × Value)}

theorem filled?_dict (entries : List (Value × Value)) (key : Text) :
    filled? (.dict entries) key = .ok ((field? key entries).filter Value.truthy) := by
  unfold filled?
  rw [holds_dict]
  cases hv : field? key entries with
  | none => rfl
  | some v =>
    show ((Value.dict entries).item key >>= fun v => _) = _
    rw [item_dict hv, Option.filter_some]
    rfl

theorem decides_required (entries : List (Value × Value)) (key : Text) :
    Decides all (checkRequired (.dict entries) key) (∃ v, field? key entries = some v ∧ v.truthy = true) := by
  unfold checkRequired
  refine decides_lift_bind fun o ho => ?_
  rw [filled?_dict, Except.ok.injEq] at ho
  cases o with
  | some v =>
    obtain ⟨hfield, hv⟩ := Option.filter_eq_some_iff.mp ho
    exact decides_lift_bind fun s _ => (decides_say rfl).congr (iff_of_true trivial ⟨v, hfield, hv⟩)
  | none =>
    refine (decides_blame_say rfl rfl).congr (iff_of_false id ?_)
    rintro ⟨v, hfield, hv⟩
    exact Option.filter_eq_none_iff.mp ho v hfield hv

theorem decides_recommended (manifest : Value) (key : Text) : Decides all (checkRecommended manifest key) True := by
  unfold checkRecommended
  refine decides_lift_bind fun o _ => ?_
  cases o with
  | some _ => exact decides_say rfl
  | none => exact ((decides_advise _).seq (decides_say rfl)).congr (by simp)

theorem decides_author (hview : ∀ author, field? "author" entries = some author → author.view = author) :
    Decides all (checkAuthor (.dict entries)) (∃ fields name, field? "author" entries = some (.dict fields) ∧
      field? "name" fields = some name ∧ name.truthy = true) := by
  unfold checkAuthor
  refine decides_lift_bind fun b hb => ?_
  rw [holds_dict] at hb
  cases hauthor : field? "author" entries with
  | none =>
    rw [hauthor] at hb
    cases hb
    exact (decides_blame_say rfl rfl).congr (by simp)
  | some author =>
    rw [hauthor] at hb
    cases hb
    refine decides_lift_bind fun author' hitem => decides_lift_bind fun name hname => ?_
    rw [item_dict hauthor] at hitem
    cases hitem
    -- A name can only be asked of a dictionary.
    unfold Value.get at hname
    rw [hview author hauthor] at hname
    split at hname
    · next fields =>
      cases hname
      cases hfield : field? "name" fields with
      | none => exact (decides_blame_say rfl rfl).congr (by simp [hfield])
      | some name =>
        show Decides all (if name.truthy = true then _ else _) _
        split
        · next hv => exact decides_lift_bind fun s _ => (decides_say rfl).congr (by simp [hfield, hv])
        · next hv => exact (decides_blame_say rfl rfl).congr (by simp [hfield, hv])
    · cases hname

/-- The value can be gone through, and everything in it is a category that exists. -/
def CategoriesExist (v : Value) : Prop :=
  ∃ items, v.elements? = some items ∧ ∀ x ∈ items, ∃ allowed ∈ categories, x = str allowed

theorem any_isStr_iff {x : Value} : (categories.any fun allowed => x.isStr allowed) = true ↔
    ∃ allowed ∈ categories, x = str allowed := by
  simp only [any_eq_true, Value.isStr_iff]

theorem decides_category (x : Value) : Decides all (checkCategory x) (∃ allowed ∈ categories, x = str allowed) := by
  unfold checkCategory
  refine decides_lift_bind fun s _ => ?_
  split
  · next h => exact (decides_say rfl).congr (iff_of_true trivial (any_isStr_iff.mp h))
  · next h =>
    exact (decides_blame_say rfl rfl).congr (iff_of_false id fun hx => h (any_isStr_iff.mpr hx))

theorem decides_categories (entries : List (Value × Value)) : Decides all (checkCategories (.dict entries))
    (∀ v, field? "categories" entries = some v → CategoriesExist v) := by
  unfold checkCategories
  refine decides_lift_bind fun b hb => ?_
  rw [holds_dict] at hb
  cases hv : field? "categories" entries with
  | none =>
    rw [hv] at hb
    cases hb
    exact decides_pure.congr (by simp)
  | some v =>
    rw [hv] at hb
    cases hb
    refine decides_lift_bind fun v' hitem => decides_lift_bind fun items hitems => ?_
    rw [item_dict hv] at hitem
    cases hitem
    have hsome : v.elements? = some items := by
      unfold Value.elements at hitems
      split at hitems
      · next helements =>
        cases hitems
        exact helements
      · cases hitems
    refine (decides_each fun x _ => decides_category x).congr ?_
    simp only [Option.some.injEq, forall_eq', CategoriesExist, hsome, exists_eq_left']

/-- Where it cannot be said that the versions of the host are old, the versions alone are said. -/
theorem sayOldHost_eq (range : Text) :
    sayOldHost range = say ("  ⚠️  兼容版本：" ++ range ++ "（建议最低版本 ≥ 0.8.0）") ∨ sayOldHost range = sayHost range := by
  unfold sayOldHost
  generalize "  ⚠️  兼容版本：" ++ range ++ "（建议最低版本 ≥ 0.8.0）" = line
  cases hline : Text.checkUtf8 line with
  | ok _ =>
    have hsaid : say line = modify fun r => { r with lines := r.lines ++ [line] } := by rw [say, hline]
    rw [hsaid]
    exact .inl rfl
  | error e =>
    have hunsaid : say line = throw (.encode e) := by rw [say, hline]
    rw [hunsaid]
    exact .inr rfl

theorem decides_sayOldHost (range : Text) : Decides all (sayOldHost range) True := by
  rcases sayOldHost_eq range with h | h
  · rw [h]
    exact decides_say rfl
  · rw [h]
    exact decides_say rfl

theorem decides_host (manifest : Value) : Decides all (checkHost manifest) True := by
  unfold checkHost
  refine decides_lift_bind fun b _ => ?_
  split
  · refine decides_lift_bind fun host _ => decides_lift_bind fun b' _ => ?_
    split
    · refine decides_lift_bind fun least _ => decides_lift_bind fun greatest _ => decides_lift_bind fun oldest _ =>
        decides_lift_bind fun newest _ => ?_
      dsimp only
      split
      · exact ((decides_advise _).seq (decides_sayOldHost _)).congr (by simp)
      · exact decides_say rfl
    · exact decides_advise _
  · exact decides_pure

/-- The least version of the host in the manifests of built plugins. -/
def usualHost : Value := .record [("min_version", str "0.8.0")]

theorem decides_manifestVersion (entries : List (Value × Value)) : Decides all (checkManifestVersion (.dict entries))
    (∃ v, field? "manifest_version" entries = some v ∧ v.isOne = true) := by
  unfold checkManifestVersion
  refine decides_lift_bind fun version hversion => ?_
  cases hversion
  cases hfield : field? "manifest_version" entries with
  | none => exact decides_lift_bind fun s _ => (decides_blame_manifest rfl).congr (by simp)
  | some v =>
    show Decides all (if (!v.isOne) = true then _ else _) _
    cases hv : v.isOne with
    | true => exact decides_pure.congr (by simp [hv])
    | false => exact decides_lift_bind fun s _ => (decides_blame_manifest rfl).congr (by simp [hv])

/-! ### Manifests -/

/-- The entries of a manifest in which nothing is wrong. -/
structure Sound (entries : List (Value × Value)) : Prop where
  required : ∀ key ∈ requiredFields, ∃ v, field? key entries = some v ∧ v.truthy = true
  author : ∃ fields name, field? "author" entries = some (.dict fields) ∧
    field? "name" fields = some name ∧ name.truthy = true
  categories : ∀ v, field? "categories" entries = some v → CategoriesExist v
  version : ∃ v, field? "manifest_version" entries = some v ∧ v.isOne = true

/-- **The check of a manifest** finds no problem exactly if nothing is wrong with its entries. -/
theorem decides_manifest (hview : ∀ author, field? "author" entries = some author → author.view = author) :
    Decides all (checkManifest (.dict entries)) (Sound entries) := by
  have hrequired : Decides all (each (checkRequired (.dict entries)) requiredFields) _ :=
    decides_each fun key _ => decides_required entries key
  have hrecommended : Decides all (each (checkRecommended (.dict entries)) recommendedFields) _ :=
    decides_each fun key _ => decides_recommended (.dict entries) key
  refine (hrequired.seq ((decides_author hview).seq ((decides_say rfl).seq (hrecommended.seq ((decides_categories entries).seq
    ((decides_host _).seq (decides_manifestVersion entries))))))).congr ⟨?_, ?_⟩
  · rintro ⟨hrequired, hauthor, -, -, hcategories, -, hversion⟩
    exact ⟨hrequired, hauthor, hcategories, hversion⟩
  · intro h
    exact ⟨h.required, h.author, trivial, fun _ _ => trivial, h.categories, trivial, h.version⟩

theorem exists_of_passes {manifest : Value} {r r' : Report} (h : Passes (checkManifest manifest) r () r') :
    ∃ entries, manifest.view = .dict entries := by
  obtain ⟨_, r₁, -, h⟩ := passes_bind_iff.mp h
  obtain ⟨_, r₂, -, h⟩ := passes_bind_iff.mp h
  obtain ⟨_, r₃, -, h⟩ := passes_bind_iff.mp h
  obtain ⟨_, r₄, -, h⟩ := passes_bind_iff.mp h
  obtain ⟨_, r₅, -, h⟩ := passes_bind_iff.mp h
  obtain ⟨_, r₆, -, h⟩ := passes_bind_iff.mp h
  obtain ⟨version, r₇, hget, -⟩ := passes_bind_iff.mp h
  have hversion := (passes_lift_iff.mp hget).1
  unfold Value.get at hversion
  split at hversion
  · next entries hentries => exact ⟨entries, hentries⟩
  · cases hversion

end

section
variable {fields : List (String × Value)} {v : Value} {name version description author : Text}

structure HasFields (fields : List (String × Value)) (name version description author : Text) (v : Value) : Prop where
  manifestVersion : fields.lookup "manifest_version" = some (.int 1)
  name : fields.lookup "name" = some (str name)
  version : fields.lookup "version" = some (str version)
  description : fields.lookup "description" = some (str description)
  author : fields.lookup "author" = some (.record [("name", str author)])
  host : fields.lookup "host_application" = some usualHost
  categories : fields.lookup "categories" = some v

theorem truthy_str {s : Text} : (str s).truthy = true ↔ s ≠ [] := by
  cases s <;> simp [Value.truthy]

theorem field?_name (author : Text) :
    field? "name" ([("name", str author)].map fun f : String × Value => (str f.1, f.2)) = some (str author) := by
  rw [field?_record, lookup_cons_self]

/-- A manifest of texts is sound exactly if no text is empty and all categories exist. -/
theorem sound_record_iff (h : HasFields fields name version description author v) :
    Sound (fields.map fun f => (str f.1, f.2)) ↔
      (name ≠ [] ∧ version ≠ [] ∧ description ≠ []) ∧ author ≠ [] ∧ CategoriesExist v := by
  have hauthor := (field?_record fields "author").trans h.author
  constructor
  · intro hsound
    have htext {key : String} {s : Text} (hkey : fields.lookup key = some (str s)) (hmem : Text.ofString key ∈ requiredFields) :
        s ≠ [] := by
      obtain ⟨w, hfield, hw⟩ := hsound.required key hmem
      rw [field?_record, hkey] at hfield
      cases hfield
      exact truthy_str.mp hw
    refine ⟨⟨htext h.name (by simp [requiredFields]), htext h.version (by simp [requiredFields]),
      htext h.description (by simp [requiredFields])⟩, ?_, hsound.categories v ?_⟩
    · obtain ⟨fields', w, hfields', hfield, hw⟩ := hsound.author
      cases hauthor.symm.trans hfields'
      cases (field?_name author).symm.trans hfield
      exact truthy_str.mp hw
    · rw [field?_record, h.categories]
  · rintro ⟨⟨hname, hversion, hdescription⟩, hne, hcategories⟩
    refine ⟨?_, ⟨_, str author, hauthor, field?_name author, truthy_str.mpr hne⟩, ?_, ⟨.int 1, ?_, by decide⟩⟩
    · simp only [requiredFields, forall_mem_cons, field?_record, h.manifestVersion, h.name, h.version,
        h.description, Option.some.injEq, exists_eq_left', truthy_str]
      exact ⟨rfl, hname, hversion, hdescription, fun _ hmem => absurd hmem (not_mem_nil)⟩
    · intro w hw
      rw [field?_record, h.categories] at hw
      cases hw
      exact hcategories
    · rw [field?_record, h.manifestVersion]

end

/-! ### Files -/

open Console Files

section
variable {w : Surroundings} {s s' : Session} {r r' : Report} {step : CheckM Unit}

theorem completes_run_iff :
    Completes (run step r) w s r' s' ↔
      Passes step { r with lines := [] } () r' ∧ (∀ line ∈ r'.lines, Encodable line) ∧ s' = s.saying r'.lines := by
  unfold run Passes
  cases step.run.run { r with lines := [] } with | mk o r₁ =>
  refine completes_bind_iff.trans ?_
  simp only [completes_sayAll_iff]
  cases o with
  | error f =>
    constructor
    · rintro ⟨u, s₁, -, hfail⟩
      exact absurd hfail not_completes_fail
    · rintro ⟨hpass, -⟩
      cases hpass
  | ok u =>
    constructor
    · rintro ⟨_, s₁, ⟨hlines, rfl⟩, hpure⟩
      obtain ⟨rfl, rfl⟩ := completes_pure_iff.mp hpure
      exact ⟨rfl, hlines, rfl⟩
    · rintro ⟨hpass, hlines, rfl⟩
      cases hpass
      exact ⟨(), _, ⟨hlines, rfl⟩, rfl⟩

end

end PluginKit.Check
