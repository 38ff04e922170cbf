import PluginKit.Proofs.Check.Verdict
import PluginKit.Proofs.Json.Displayed

/-!
# What the check of a manifest needs

`Needs x P` says that a step of the check is completed, and adds to the report only what can be written, exactly under the
condition `P`. The check of the text of a manifest needs that the text is no JSON text at all, or that it is an object whose author,
categories and host versions have the forms that the check expects and whose shown parts can be written
(`needs_manifestText`). All other JSON texts end it by a fault.
-/

namespace PluginKit.Check

open List
open Value (str field? field?_record holds_dict item_dict)
open Json (Denoted Displays)

variable {room : Nat} {v : Value}

/-! ### Steps -/

/-- What a report has found can be written. -/
structure Report.Tellable (r : Report) : Prop where
  problems : ∀ p ∈ r.problems, Encodable p.message
  advice : ∀ a ∈ r.advice, Encodable a.message

/-- What a report has said and found can be written. -/
structure Report.Writable (r : Report) : Prop extends r.Tellable where
  lines : ∀ line ∈ r.lines, Encodable line

theorem Report.tellable_append_iff {r d : Report} : (r.append d).Tellable ↔ r.Tellable ∧ d.Tellable := by
  constructor
  · intro h
    obtain ⟨hproblems, hproblems'⟩ := forall_mem_append.mp h.problems
    obtain ⟨hadvice, hadvice'⟩ := forall_mem_append.mp h.advice
    exact ⟨⟨hproblems, hadvice⟩, hproblems', hadvice'⟩
  · rintro ⟨h, h'⟩
    exact ⟨forall_mem_append.mpr ⟨h.problems, h'.problems⟩, forall_mem_append.mpr ⟨h.advice, h'.advice⟩⟩

theorem Report.writable_append_iff {r d : Report} : (r.append d).Writable ↔ r.Writable ∧ d.Writable := by
  constructor
  · intro h
    obtain ⟨htellable, htellable'⟩ := tellable_append_iff.mp h.toTellable
    obtain ⟨hlines, hlines'⟩ := forall_mem_append.mp h.lines
    exact ⟨⟨htellable, hlines⟩, htellable', hlines'⟩
  · rintro ⟨h, h'⟩
    exact ⟨tellable_append_iff.mpr ⟨h.toTellable, h'.toTellable⟩, forall_mem_append.mpr ⟨h.lines, h'.lines⟩⟩

theorem Report.append_inj {r d e : Report} (h : r.append d = r.append e) : d = e := by
  cases d
  cases e
  simpa [append] using h

/-- Exactly under a condition, a step is completed and adds to the report only what can be written. -/
structure Needs (x : CheckM Unit) (P : Prop) : Prop where
  grows : ∀ r r', Passes x r () r' → ∃ d, r' = r.append d
  passes_iff : ∀ r : Report, (∃ d, Passes x r () (r.append d) ∧ d.Writable) ↔ P

section
variable {α : Type} {P Q : Prop} {x y : CheckM Unit}

theorem Needs.congr (h : Needs x P) (hPQ : P ↔ Q) : Needs x Q := ⟨h.grows, fun r => (h.passes_iff r).trans hPQ⟩

theorem needs_of_passes {d : Report} (h : ∀ r, Passes x r () (r.append d)) : Needs x d.Writable where
  grows r r' hpass := by
    cases (h r).symm.trans hpass
    exact ⟨d, rfl⟩
  passes_iff r := by
    constructor
    · rintro ⟨e, hpass, he⟩
      rw [Report.append_inj (congrArg Prod.snd ((h r).symm.trans hpass))]
      exact he
    · intro hd
      exact ⟨d, h r, hd⟩

theorem needs_of_not_passes (h : ∀ r r', ¬ Passes x r () r') : Needs x False where
  grows r r' hpass := absurd hpass (h r r')
  passes_iff r := iff_of_false (by rintro ⟨d, hpass, -⟩; exact h _ _ hpass) id

theorem needs_pure : Needs (pure ()) True :=
  (needs_of_passes (d := .empty) fun r => by rw [r.append_empty]; rfl).congr
    (iff_of_true ⟨⟨nofun, nofun⟩, nofun⟩ trivial)

theorem needs_throw (f : Fault) : Needs (throw f) False := needs_of_not_passes fun r r' h => by cases h

theorem needs_say (line : Text) : Needs (say line) (Encodable line) := by
  by_cases hline : Encodable line
  · refine (needs_of_passes (d := ⟨[line], [], []⟩) fun r => ?_).congr
      (iff_of_true ⟨⟨nofun, nofun⟩, forall_mem_singleton.mpr hline⟩ hline)
    exact passes_say_iff.mpr ⟨hline, by simp [Report.append]⟩
  · exact (needs_of_not_passes fun r r' h => hline (passes_say_iff.mp h).1).congr (iff_of_false id hline)

theorem needs_blame (p : Problem) : Needs (blame p) (Encodable p.message) := by
  refine (needs_of_passes (d := ⟨[], [p], []⟩) fun r => ?_).congr ⟨fun h => h.problems p mem_cons_self, fun h => ?_⟩
  · simp only [Report.append, append_nil]
    rfl
  · exact ⟨⟨forall_mem_singleton.mpr h, forall_mem_nil _⟩, forall_mem_nil _⟩

theorem needs_advise (a : Advice) : Needs (advise a) (Encodable a.message) := by
  refine (needs_of_passes (d := ⟨[], [], [a]⟩) fun r => ?_).congr ⟨fun h => h.advice a mem_cons_self, fun h => ?_⟩
  · simp only [Report.append, append_nil]
    rfl
  · exact ⟨⟨forall_mem_nil _, forall_mem_singleton.mpr h⟩, forall_mem_nil _⟩

theorem Needs.seq (hx : Needs x P) (hy : Needs y Q) : Needs (x >>= fun _ => y) (P ∧ Q) where
  grows r r' h := by
    obtain ⟨u, r₁, hfirst, hrest⟩ := passes_bind_iff.mp h
    obtain ⟨d, rfl⟩ := hx.grows _ _ hfirst
    obtain ⟨e, rfl⟩ := hy.grows _ _ hrest
    exact ⟨d.append e, r.append_assoc d e⟩
  passes_iff r := by
    constructor
    · rintro ⟨d', hpass, hd'⟩
      obtain ⟨u, r₁, hfirst, hrest⟩ := passes_bind_iff.mp hpass
      obtain ⟨d, rfl⟩ := hx.grows _ _ hfirst
      obtain ⟨e, he⟩ := hy.grows _ _ hrest
      rw [he] at hrest
      rw [r.append_assoc] at he
      rw [Report.append_inj he, Report.writable_append_iff] at hd'
      exact ⟨(hx.passes_iff r).mp ⟨d, hfirst, hd'.1⟩, (hy.passes_iff _).mp ⟨e, hrest, hd'.2⟩⟩
    · rintro ⟨hP, hQ⟩
      obtain ⟨d, hfirst, hd⟩ := (hx.passes_iff r).mpr hP
      obtain ⟨e, hrest, he⟩ := (hy.passes_iff (r.append d)).mpr hQ
      rw [r.append_assoc] at hrest
      exact ⟨d.append e, passes_bind_iff.mpr ⟨(), _, hfirst, hrest⟩, Report.writable_append_iff.mpr ⟨hd, he⟩⟩

theorem needs_lift_bind {o : Outcome α} {f : α → CheckM Unit} {Q : α → Prop} (h : ∀ a, o = .ok a → Needs (f a) (Q a)) :
    Needs (lift o >>= f) (∃ a, o = .ok a ∧ Q a) := by
  cases o with
  | error e => exact (needs_throw e).congr (by simp)
  | ok a => exact (h a rfl).congr (by simp)

theorem needs_lift_ok {o : Outcome α} {a : α} {f : α → CheckM Unit} (ho : o = .ok a) (h : Needs (f a) P) :
    Needs (lift o >>= f) P := by
  cases ho
  exact h

theorem needs_lift_error {o : Outcome α} {e : Fault} {f : α → CheckM Unit} (ho : o = .error e) :
    Needs (lift o >>= f) False := by
  cases ho
  exact needs_throw e

theorem needs_each {step : α → CheckM Unit} {p : α → Prop} {items : List α}
    (h : ∀ a ∈ items, Needs (step a) (p a)) : Needs (each step items) (∀ a ∈ items, p a) := by
  induction items with
  | nil => exact needs_pure.congr (by simp)
  | cons a items ih =>
    obtain ⟨ha, hitems⟩ := forall_mem_cons.mp h
    exact (ha.seq (ih hitems)).congr forall_mem_cons.symm

/-- Something that is noted and said, in words that can be written. -/
theorem needs_blame_say {p : Problem} {line : Text} (hp : Encodable p.message) (hline : Encodable line) :
    Needs (blame p >>= fun _ => say line) True :=
  ((needs_blame p).seq (needs_say line)).congr (iff_of_true ⟨hp, hline⟩ trivial)

end

/-! ### Fields -/

section
variable {entries : List (Value × Value)} {key : Text}

theorem shown_iff (h : Denoted room v) :
    (∃ t, shown v = .ok t ∧ Encodable t) ↔ ∀ s, v = str s → Encodable (s.take shownLength) := by
  by_cases hstr : ∃ s, v = str s
  · obtain ⟨s, rfl⟩ := hstr
    simp only [shown, Except.ok.injEq, exists_eq_left', Value.str.injEq, forall_eq']
    split
    · simp
    · next hlong => rw [take_of_length_le (Nat.not_lt.mp hlong)]
  · have hshown : shown v = v.display := by
      cases v with
      | str s => exact absurd ⟨s, rfl⟩ hstr
      | _ => rfl
    rw [hshown]
    exact iff_of_true (h.displays_iff.mpr fun s hv => absurd ⟨s, hv⟩ hstr) fun s hv => absurd ⟨s, hv⟩ hstr

theorem needs_required (hkey : Encodable key) (hv : ∀ v, field? key entries = some v → ∃ room, Denoted room v) :
    Needs (checkRequired (.dict entries) key)
      (∀ s, field? key entries = some (str s) → Encodable (s.take shownLength)) := by
  unfold checkRequired
  refine needs_lift_ok (filled?_dict entries key) ?_
  cases hfilled : (field? key entries).filter Value.truthy with
  | none =>
    refine (needs_blame_say ?_ ?_).congr (iff_of_true trivial fun s hs => ?_)
    · simp [Problem.message, hkey]
    · simp [hkey]
    · have hempty := Option.filter_eq_none_iff.mp hfilled _ hs
      rw [truthy_str, not_not] at hempty
      rw [hempty, take_nil]
      exact encodable_nil
  | some v =>
    have hfield := (Option.filter_eq_some_iff.mp hfilled).1
    obtain ⟨room, hdenoted⟩ := hv v hfield
    refine (needs_lift_bind fun s _ => needs_say _).congr ?_
    simp only [encodable_append_iff, encodable_ofString, hkey, true_and, shown_iff hdenoted, hfield, Option.some.injEq]

theorem needs_recommended (hkey : Encodable key) : Needs (checkRecommended (.dict entries) key) True := by
  unfold checkRecommended
  refine needs_lift_ok (filled?_dict entries key) ?_
  cases (field? key entries).filter Value.truthy with
  | none =>
    exact ((needs_advise _).seq (needs_say _)).congr (by simp [Advice.message, hkey])
  | some v => exact (needs_say _).congr (by simp [hkey])

/-- The author can be checked: there is none, or a dictionary in which no name stands that cannot be written. -/
def AuthorFits (entries : List (Value × Value)) : Prop :=
  ∀ author, field? "author" entries = some author → ∃ fields, author = .dict fields ∧
    ∀ s, field? "name" fields = some (str s) → Encodable s

theorem encodable_of_not_truthy {s : Text} (h : ¬ (str s).truthy = true) : Encodable s := by
  rw [truthy_str, not_not] at h
  rw [h]
  exact encodable_nil

theorem get_error (h : Denoted room v) (hv : ¬ ∃ fields, v = .dict fields) (key : Text)
    (default : Value) : ∃ e, v.get key default = .error e := by
  unfold Value.get
  rw [h.view_eq]
  split
  · next fields => exact absurd ⟨fields, rfl⟩ hv
  · exact ⟨_, rfl⟩

theorem needs_author (hv : ∀ v, field? "author" entries = some v → ∃ room, Denoted room v) :
    Needs (checkAuthor (.dict entries)) (AuthorFits entries) := by
  unfold checkAuthor AuthorFits
  refine needs_lift_ok (holds_dict entries "author") ?_
  have hmissing : Encodable Problem.missingAuthor.message := encodable_ofString _
  have hunnamed : Encodable Problem.emptyAuthor.message := encodable_ofString _
  cases hauthor : field? "author" entries with
  | none => exact (needs_blame_say hmissing (encodable_ofString _)).congr (by simp)
  | some author =>
    obtain ⟨room, hdenoted⟩ := hv author hauthor
    refine needs_lift_ok (item_dict hauthor) ?_
    -- Only a dictionary can be asked for a name.
    by_cases hdict : ∃ fields, author = .dict fields
    · obtain ⟨fields, rfl⟩ := hdict
      refine needs_lift_ok (a := (field? "name" fields).getD .null) rfl ?_
      simp only [Option.some.injEq, forall_eq', Value.dict.injEq, exists_eq_left']
      cases hname : field? "name" fields with
      | none => exact (needs_blame_say hunnamed (encodable_ofString _)).congr (by simp)
      | some name =>
        obtain ⟨_, hnamed⟩ := hdenoted.field hname
        rw [Option.getD_some]
        split
        · refine (needs_lift_bind fun s _ => needs_say _).congr ?_
          simp only [encodable_append_iff, encodable_ofString, true_and, Option.some.injEq]
          exact hnamed.displays_iff
        · next hempty =>
          refine (needs_blame_say hunnamed (encodable_ofString _)).congr (iff_of_true trivial fun s hs => ?_)
          cases hs
          exact encodable_of_not_truthy hempty
    · obtain ⟨e, he⟩ := get_error hdenoted hdict "name" .null
      refine (needs_lift_error he).congr (iff_of_false id fun h => ?_)
      obtain ⟨fields, hfields, -⟩ := h author rfl
      exact hdict ⟨fields, hfields⟩

/-- The categories can be checked: there are none, or something to go through in which no text stands that cannot be
written. -/
def CategoriesFit (entries : List (Value × Value)) : Prop :=
  ∀ v, field? "categories" entries = some v → ∃ items, v.elements? = some items ∧
    ∀ s, str s ∈ items → Encodable s

theorem needs_category {x : Value} (h : Denoted room x) : Needs (checkCategory x) (∀ s, x = str s → Encodable s) := by
  unfold checkCategory
  refine (needs_lift_bind fun s _ => ?_).congr h.displays_iff
  split
  · exact (needs_say _).congr (by simp)
  · exact ((needs_blame _).seq (needs_say _)).congr
      (by simp [Problem.message])

theorem denoted_elements {items : List Value} (h : Denoted room v)
    (hitems : v.elements? = some items) : ∀ x ∈ items, ∃ room', Denoted room' x := by
  intro x hx
  cases h with
  | scalar h =>
    cases v with
    | list | tuple | dict | loop | again | bytes | date | datetime | set => cases h
    | null | bool | int | float => cases hitems
    | str s =>
      cases hitems
      obtain ⟨c, -, rfl⟩ := mem_map.mp hx
      exact ⟨0, .scalar rfl rfl⟩
  | list h =>
    cases hitems
    exact ⟨_, h x hx⟩
  | dict _ h =>
    cases hitems
    obtain ⟨e, he, rfl⟩ := mem_map.mp hx
    obtain ⟨f, -, rfl⟩ := mem_map.mp he
    exact ⟨0, .scalar rfl rfl⟩

theorem needs_categories (hv : ∀ v, field? "categories" entries = some v → ∃ room, Denoted room v) :
    Needs (checkCategories (.dict entries)) (CategoriesFit entries) := by
  unfold checkCategories CategoriesFit
  refine needs_lift_ok (holds_dict entries "categories") ?_
  cases hcategories : field? "categories" entries with
  | none => exact needs_pure.congr (by simp)
  | some v =>
    obtain ⟨room, hdenoted⟩ := hv v hcategories
    refine needs_lift_ok (item_dict hcategories) ?_
    simp only [Option.some.injEq, forall_eq']
    cases hitems : v.elements? with
    | none =>
      have herror : ∃ e, v.elements = .error e := ⟨_, by rw [Value.elements, hitems]⟩
      obtain ⟨e, he⟩ := herror
      exact (needs_lift_error he).congr (by simp)
    | some items =>
      refine needs_lift_ok (a := items) (by rw [Value.elements, hitems]) ?_
      have hcategory : ∀ x ∈ items, Needs (checkCategory x) (∀ s, x = str s → Encodable s) := by
        intro x hx
        obtain ⟨_, hx⟩ := denoted_elements hdenoted hitems x hx
        exact needs_category hx
      refine (needs_each hcategory).congr ⟨fun h => ?_, ?_⟩
      · exact ⟨items, rfl, fun s hs => h _ hs s rfl⟩
      · rintro ⟨items', hsame, h⟩ x hx s rfl
        cases hsame
        exact h s hx

/-- The versions of the host can be checked: nothing is said about the host, or nothing in it is called the least version,
or it is a dictionary in which no version stands that cannot be written. -/
def HostFits (entries : List (Value × Value)) : Prop :=
  ∀ host, field? "host_application" entries = some host → host.holds "min_version" = .ok false ∨
    ∃ fields, host = .dict fields ∧ ∀ key ∈ (["min_version", "max_version"] : List Text), ∀ s,
      field? key fields = some (str s) → Encodable s

theorem needs_sayOldHost (range : Text) : Needs (sayOldHost range) (Encodable range) := by
  have hsay (before after : String) : Needs (say (before ++ range ++ after)) (Encodable range) :=
    (needs_say _).congr (by simp)
  have hhost : Needs (sayHost range) (Encodable range) :=
    (needs_say _).congr (by simp)
  rcases sayOldHost_eq range with h | h
  · rw [h]
    exact hsay _ _
  · rw [h]
    exact hhost

theorem needs_versions {least greatest : Value} :
    Needs (do
      let oldest ← lift least.display
      let range := oldest ++ " ~ " ++ (← lift greatest.display)
      if isOld least then
        advise (.oldHostVersion oldest)
        sayOldHost range
      else sayHost range) (Displays least ∧ Displays greatest) := by
  refine (needs_lift_bind fun oldest _ => needs_lift_bind (Q := fun newest => Encodable oldest ∧ Encodable newest)
    fun newest _ => ?_).congr ?_
  · dsimp only
    split
    · refine ((needs_advise _).seq (needs_sayOldHost _)).congr ?_
      simp [Advice.message]
    · exact (needs_say _).congr (by simp)
  · constructor
    · rintro ⟨oldest, holdest, newest, hnewest, ho, hn⟩
      exact ⟨⟨oldest, holdest, ho⟩, newest, hnewest, hn⟩
    · rintro ⟨⟨oldest, holdest, ho⟩, newest, hnewest, hn⟩
      exact ⟨oldest, holdest, newest, hnewest, ho, hn⟩

theorem needs_host (hv : ∀ v, field? "host_application" entries = some v → ∃ room, Denoted room v) :
    Needs (checkHost (.dict entries)) (HostFits entries) := by
  unfold checkHost HostFits
  refine needs_lift_ok (holds_dict entries "host_application") ?_
  have hmissing : Encodable Advice.missingHostVersion.message := encodable_ofString _
  cases hhost : field? "host_application" entries with
  | none => exact needs_pure.congr (by simp)
  | some host =>
    obtain ⟨room, hdenoted⟩ := hv host hhost
    refine needs_lift_ok (item_dict hhost) ?_
    simp only [Option.some.injEq, forall_eq']
    -- A list or a text may hold the name of the field, but cannot be asked for the field.
    by_cases hdict : ∃ fields, host = .dict fields
    · obtain ⟨fields, rfl⟩ := hdict
      refine needs_lift_ok (holds_dict fields "min_version") ?_
      rw [holds_dict]
      cases hleast : field? "min_version" fields with
      | none => exact (needs_advise _).congr (iff_of_true hmissing (.inl rfl))
      | some least =>
        have hget (default : Value) : (Value.dict fields).get "min_version" default = .ok least := by
          show Except.ok ((field? "min_version" fields).getD default) = _
          rw [hleast, Option.getD_some]
        refine needs_lift_ok (hget _) (needs_lift_ok rfl (needs_versions.congr ?_))
        obtain ⟨_, hleastDenoted⟩ := hdenoted.field hleast
        have hgreatest : Displays ((field? "max_version" fields).getD (str "最新")) ↔
            ∀ s, field? "max_version" fields = some (str s) → Encodable s := by
          cases hmax : field? "max_version" fields with
          | none => exact iff_of_true ⟨_, rfl, encodable_ofString _⟩ (by simp)
          | some greatest =>
            obtain ⟨_, hgreatestDenoted⟩ := hdenoted.field hmax
            simpa using hgreatestDenoted.displays_iff
        rw [hleastDenoted.displays_iff, hgreatest]
        simp [hleast]
    · refine (needs_lift_bind (Q := fun b => b = false) fun b _ => ?_).congr ?_
      · cases b with
        | false => exact (needs_advise _).congr (iff_of_true hmissing rfl)
        | true =>
          obtain ⟨e, he⟩ := get_error hdenoted hdict "min_version" (str "0.0.0")
          exact (needs_lift_error he).congr (by simp)
      · rw [exists_eq_right, or_iff_left]
        rintro ⟨fields, hfields, -⟩
        exact hdict ⟨fields, hfields⟩

theorem needs_manifestVersion (hv : ∀ v, field? "manifest_version" entries = some v → ∃ room, Denoted room v) :
    Needs (checkManifestVersion (.dict entries))
      (∀ s, field? "manifest_version" entries = some (str s) → Encodable s) := by
  unfold checkManifestVersion
  have hblame (version : Value) :
      Needs (lift version.display >>= fun s => blame (.badManifestVersion s)) (Displays version) :=
    (needs_lift_bind fun s _ => needs_blame _).congr
      (by simp [Displays, Problem.message])
  refine needs_lift_ok (a := (field? "manifest_version" entries).getD .null) rfl ?_
  cases hversion : field? "manifest_version" entries with
  | none => exact (hblame .null).congr (iff_of_true ⟨_, rfl, encodable_ofString _⟩ (by simp))
  | some version =>
    obtain ⟨room, hdenoted⟩ := hv version hversion
    simp only [Option.getD_some, Option.some.injEq]
    split
    · exact (hblame version).congr hdenoted.displays_iff
    · next hone =>
      refine needs_pure.congr (iff_of_true trivial fun s hs => ?_)
      rw [hs] at hone
      exact absurd rfl hone

/-! ### Manifests -/

/-- The entries of a manifest that can be checked to the end. -/
structure Presentable (entries : List (Value × Value)) : Prop where
  /-- The beginnings of the texts that must be there can be written. -/
  required : ∀ key ∈ requiredFields, ∀ s, field? key entries = some (str s) → Encodable (s.take shownLength)
  author : AuthorFits entries
  categories : CategoriesFit entries
  host : HostFits entries
  /-- A text in the place of the version of the manifest can be written as a whole. -/
  version : ∀ s, field? "manifest_version" entries = some (str s) → Encodable s

/-- **The check of a manifest** needs that its parts have the forms that are expected and can be written. -/
theorem needs_manifest (h : Denoted room (.dict entries)) :
    Needs (checkManifest (.dict entries)) (Presentable entries) := by
  have hfield : ∀ key v, field? key entries = some v → ∃ room, Denoted room v := fun _ _ => h.field
  have hrequired : Needs (each (checkRequired (.dict entries)) requiredFields) _ :=
    needs_each fun key hkey => needs_required (encodable_requiredFields key hkey) (hfield key)
  have hrecommended : Needs (each (checkRecommended (.dict entries)) recommendedFields) _ :=
    needs_each fun key hkey => needs_recommended (encodable_recommendedFields key hkey)
  refine (hrequired.seq ((needs_author (hfield _)).seq ((needs_say _).seq (hrecommended.seq
    ((needs_categories (hfield _)).seq ((needs_host (hfield _)).seq (needs_manifestVersion (hfield _)))))))).congr
    ⟨?_, ?_⟩
  · rintro ⟨hrequired, hauthor, -, -, hcategories, hhost, hversion⟩
    exact ⟨hrequired, hauthor, hcategories, hhost, hversion⟩
  · intro h
    exact ⟨h.required, h.author, encodable_ofString _, fun _ _ => trivial, h.categories, h.host, h.version⟩

end

/-- A manifest of texts that can be written is checked to the end, if all categories exist. -/
theorem presentable_record {fields : List (String × Value)} {name version description author : Text} {v : Value}
    (h : HasFields fields name version description author v) (hname : Encodable name) (hversion : Encodable version)
    (hdescription : Encodable description) (hauthor : Encodable author) (hv : CategoriesExist v) :
    Presentable (fields.map fun f => (str f.1, f.2)) := by
  have htake {s : Text} (hs : Encodable s) : Encodable (s.take shownLength) := fun c hc => hs c (mem_of_mem_take hc)
  have hallowed : ∀ allowed ∈ categories, Encodable allowed := by simp [categories]
  refine ⟨?_, ?_, ?_, ?_, ?_⟩
  · simp [requiredFields, field?_record, h.manifestVersion, h.name, h.version, h.description, htake hname,
      htake hversion, htake hdescription]
  · intro a ha
    rw [field?_record, h.author] at ha
    cases ha
    refine ⟨_, rfl, fun s hs => ?_⟩
    cases (field?_name author).symm.trans hs
    exact hauthor
  · intro w hw
    rw [field?_record, h.categories] at hw
    cases hw
    obtain ⟨items, hitems, hall⟩ := hv
    refine ⟨items, hitems, fun s hs => ?_⟩
    obtain ⟨allowed, hmem, heq⟩ := hall _ hs
    cases heq
    exact hallowed s hmem
  · intro host hhost
    rw [field?_record, h.host] at hhost
    cases hhost
    refine .inr ⟨_, rfl, ?_⟩
    simp only [forall_mem_cons, field?_record]
    refine ⟨?_, ?_, forall_mem_nil _⟩
    · intro s hs
      cases hs
      exact encodable_ofString _
    · intro s hs
      cases hs
  · intro s hs
    rw [field?_record, h.manifestVersion] at hs
    cases hs

/-- The text of a manifest can be checked to the end: it is malformed, or it is an object whose entries can be checked. -/
def ExaminableText (text : Text) : Prop :=
  (∃ e, Json.read text = .error (.malformed e)) ∨
    ∃ entries, Json.read text = .ok (.dict entries) ∧ Presentable entries

theorem needs_manifestText (text : Text) : Needs (checkManifestText text) (ExaminableText text) := by
  unfold checkManifestText ExaminableText
  cases hread : Json.read text with
  | error e =>
    cases e with
    | fault f => exact (needs_throw f).congr (by simp)
    | malformed e =>
      have hmessage := Json.encodable_message e text
      have hproblem : Encodable (Problem.badManifest (e.message text)).message := (encodable_ofString _).append hmessage
      exact (needs_blame_say hproblem ((encodable_ofString _).append hmessage)).congr (by simp)
  | ok manifest =>
    have hdenoted := Json.denoted_of_read hread
    by_cases hdict : ∃ entries, manifest = .dict entries
    · obtain ⟨entries, rfl⟩ := hdict
      exact (needs_manifest hdenoted).congr (by simp)
    · -- What is no dictionary ends the check at the latest where the version of the manifest is asked for.
      refine (needs_of_not_passes fun r r' hpass => ?_).congr (iff_of_false id ?_)
      · obtain ⟨entries, hentries⟩ := exists_of_passes hpass
        exact hdict ⟨entries, hdenoted.view_eq.symm.trans hentries⟩
      · rintro (⟨e, he⟩ | ⟨entries, hentries, -⟩)
        · cases he
        · exact hdict ⟨entries, Except.ok.inj hentries⟩

end PluginKit.Check
