import PluginKit.Proofs.Bridge.Classes

/-!
# Runs of a loader

While a loader is used, its plugin file can be written, replaced by a directory or removed at any time. What a loader
has found is decided by the first loading that comes upon a file which reads as a text: before it nothing is found and
nothing is kept, and from then on every loading yields what was found in that text, whatever is at the path by then
(`Site.found_after`). The classes for the bot are then those of this text, if its names can be shown
(`event_of_run_shows`).
-/

namespace PluginKit.Bridge

open List
open Files (Entry)

/-! ### Events -/

/-- What can happen to a loader and to what is at its path. -/
inductive Event where
  | put (entry : Entry)
  | remove
  | load
  | components (hostPresent : Bool)

namespace Event

def isLoading : Event → Bool
  | load => true
  | components hostPresent => hostPresent
  | _ => false

def leaves (entry : Option Entry) : Event → Option Entry
  | put e => some e
  | remove => none
  | _ => entry

end Event

def entryAfter (entry : Option Entry) (events : List Event) : Option Entry :=
  events.foldl Event.leaves entry

/-- There is a file that reads as the text. -/
def ReadsAs (entry : Option Entry) (text : Text) : Prop :=
  ∃ content, entry = some (.file content) ∧ content.read = .ok text

/-- No loading among the events comes upon a file that can be read. -/
def Unread (entry : Option Entry) (events : List Event) : Prop :=
  ∀ before event after, events = before ++ event :: after → event.isLoading = true →
    ∀ text, ¬ ReadsAs (entryAfter entry before) text

/-- The first loading among the events that comes upon a file that can be read reads the text. -/
def FirstRead (entry : Option Entry) (events : List Event) (text : Text) : Prop :=
  ∃ before event after, events = before ++ event :: after ∧ event.isLoading = true ∧
    ReadsAs (entryAfter entry before) text ∧ Unread entry before

section
variable {entry : Option Entry} {events : List Event} {event : Event} {text : Text}

theorem append_cons_eq_snoc {before after : List Event} {e : Event} (h : events ++ [event] = before ++ e :: after) :
    (after = [] ∧ before = events ∧ e = event) ∨ ∃ rest, after = rest ++ [event] ∧ events = before ++ e :: rest := by
  rcases eq_nil_or_concat after with rfl | ⟨rest, last, rfl⟩
  · obtain ⟨hevents, hlast⟩ := append_inj' h rfl
    exact .inl ⟨rfl, hevents.symm, (List.cons.inj hlast).1.symm⟩
  · have hsnoc : events ++ [event] = (before ++ e :: rest) ++ [last] := by
      rw [h]
      simp
    obtain ⟨hevents, hlast⟩ := append_inj' hsnoc rfl
    exact .inr ⟨rest, by rw [(List.cons.inj hlast).1, concat_eq_append], hevents⟩

theorem unread_nil : Unread entry [] := by
  intro before e after h
  cases before <;> cases h

theorem unread_snoc_iff : Unread entry (events ++ [event]) ↔
    Unread entry events ∧ (event.isLoading = true → ∀ text, ¬ ReadsAs (entryAfter entry events) text) := by
  constructor
  · intro h
    refine ⟨fun before e after he => h before e (after ++ [event]) ?_, h events event [] rfl⟩
    rw [he, append_assoc, cons_append]
  · rintro ⟨hevents, hevent⟩ before e after he
    rcases append_cons_eq_snoc he with ⟨rfl, rfl, rfl⟩ | ⟨rest, rfl, hrest⟩
    · exact hevent
    · exact hevents before e rest hrest

theorem firstRead_snoc_iff : FirstRead entry (events ++ [event]) text ↔ FirstRead entry events text ∨
    (Unread entry events ∧ event.isLoading = true ∧ ReadsAs (entryAfter entry events) text) := by
  constructor
  · rintro ⟨before, e, after, he, hloading, hreads, hunread⟩
    rcases append_cons_eq_snoc he with ⟨rfl, rfl, rfl⟩ | ⟨rest, rfl, hrest⟩
    · exact .inr ⟨hunread, hloading, hreads⟩
    · exact .inl ⟨before, e, rest, hrest, hloading, hreads, hunread⟩
  · rintro (⟨before, e, after, rfl, hloading, hreads, hunread⟩ | ⟨hunread, hloading, hreads⟩)
    · exact ⟨before, e, after ++ [event], by simp, hloading, hreads, hunread⟩
    · exact ⟨events, event, [], rfl, hloading, hreads, hunread⟩

/-- Among events either no loading reads the file, or one is the first that does. -/
theorem unread_or_firstRead (entry : Option Entry) (events : List Event) :
    Unread entry events ∨ ∃ text, FirstRead entry events text := by
  induction events using List.reverseRecOn with
  | nil => exact .inl unread_nil
  | append_singleton events event ih =>
    rcases ih with ih | ⟨text, ih⟩
    · by_cases hevent : event.isLoading = true ∧ ∃ text, ReadsAs (entryAfter entry events) text
      · obtain ⟨hloading, text, hreads⟩ := hevent
        exact .inr ⟨text, firstRead_snoc_iff.mpr (.inr ⟨ih, hloading, hreads⟩)⟩
      · exact .inl (unread_snoc_iff.mpr ⟨ih, fun hloading text hreads => hevent ⟨hloading, text, hreads⟩⟩)
    · exact .inr ⟨text, firstRead_snoc_iff.mpr (.inl ih)⟩

theorem not_unread_of_firstRead (h : FirstRead entry events text) : ¬ Unread entry events := by
  obtain ⟨before, e, after, he, hloading, hreads, -⟩ := h
  exact fun hunread => hunread before e after he hloading text hreads

end

/-! ### One loading -/

namespace Loader

variable {l : Loader} {entry : Option Entry}

theorem load_of_found {r : Registrations} (h : l.found = some r) (entry : Option Entry) :
    (l.load entry).loader = l ∧ (l.load entry).registrations = r := by
  simp only [load, h, and_self]

theorem load_of_readsAs {text : Text} (h : l.found = none) (hreads : ReadsAs entry text) :
    (l.load entry).loader = { l with found := some (.ofText text) } ∧
      (l.load entry).registrations = .ofText text := by
  obtain ⟨content, rfl, hread⟩ := hreads
  have hentry : Files.readEntry l.path (some (.file content)) = .ok text := hread
  simp only [load, h, hentry, and_self]

theorem load_of_not_readsAs (h : l.found = none) (hreads : ∀ text, ¬ ReadsAs entry text) :
    (l.load entry).loader = l ∧ (l.load entry).registrations = .empty := by
  cases entry with
  | none => simp only [load, h, and_self]
  | some e =>
    cases hread : Files.readEntry l.path (some e) with
    | error f => simp only [load, h, hread, and_self]
    | ok text =>
      cases e with
      | directory => cases hread
      | file content => exact absurd ⟨content, rfl, hread⟩ (hreads text)

end Loader

/-! ### Runs -/

structure Site where
  loader : Loader
  entry : Option Entry

inductive Yield where
  | nothing
  | registrations (r : Registrations)
  | classes (cs : Outcome (List ComponentClass))

namespace Site

def step (s : Site) : Event → Site × Yield
  | .put e => (⟨s.loader, some e⟩, .nothing)
  | .remove => (⟨s.loader, none⟩, .nothing)
  | .load => (⟨(s.loader.load s.entry).loader, s.entry⟩, .registrations (s.loader.load s.entry).registrations)
  | .components hostPresent =>
    (⟨(s.loader.components hostPresent s.entry).1, s.entry⟩, .classes (s.loader.components hostPresent s.entry).2.2)

def after (s : Site) (events : List Event) : Site :=
  events.foldl (fun s event => (s.step event).1) s

def yield (s : Site) (events : List Event) (event : Event) : Yield :=
  ((s.after events).step event).2

variable (s : Site) (events : List Event) (event : Event)

theorem after_snoc : s.after (events ++ [event]) = ((s.after events).step event).1 := by
  rw [after, foldl_append]
  rfl

theorem entry_step : (s.step event).1.entry = event.leaves s.entry := by
  cases event <;> rfl

theorem entry_after : (s.after events).entry = entryAfter s.entry events := by
  induction events using List.reverseRecOn with
  | nil => rfl
  | append_singleton events event ih =>
    rw [after_snoc, entry_step, ih, entryAfter, entryAfter, foldl_append]
    rfl

theorem loader_step {event : Event} (h : event.isLoading = true) :
    (s.step event).1.loader = (s.loader.load s.entry).loader := by
  cases event with
  | load => rfl
  | components hostPresent =>
    cases hostPresent with
    | true => rfl
    | false => cases h
  | _ => cases h

theorem loader_step_of_not_loading {event : Event} (h : event.isLoading = false) : (s.step event).1.loader = s.loader := by
  cases event with
  | components hostPresent =>
    cases hostPresent with
    | true => cases h
    | false => rfl
  | load => cases h
  | _ => rfl

/-- **What a loader has found** is decided by the first loading that reads the file. -/
theorem found_after (hs : s.loader.found = none) :
    (Unread s.entry events → (s.after events).loader.found = none) ∧
      ∀ text, FirstRead s.entry events text → (s.after events).loader.found = some (.ofText text) := by
  induction events using List.reverseRecOn with
  | nil =>
    refine ⟨fun _ => hs, fun text h => ?_⟩
    exact absurd unread_nil (not_unread_of_firstRead h)
  | append_singleton events event ih =>
    obtain ⟨ihUnread, ihRead⟩ := ih
    rw [after_snoc]
    cases hloading : event.isLoading with
    | false =>
      -- the event may change what is at the path, but not what was found
      rw [loader_step_of_not_loading _ hloading]
      refine ⟨fun h => ihUnread (unread_snoc_iff.mp h).1, fun text h => ihRead text ?_⟩
      refine (firstRead_snoc_iff.mp h).resolve_right fun hand => ?_
      rw [hloading] at hand
      cases hand.2.1
    | true =>
      rw [loader_step _ hloading, entry_after]
      refine ⟨fun h => ?_, fun text h => ?_⟩
      · obtain ⟨hunread, hevent⟩ := unread_snoc_iff.mp h
        rw [(Loader.load_of_not_readsAs (ihUnread hunread) (hevent hloading)).1]
        exact ihUnread hunread
      · rcases firstRead_snoc_iff.mp h with h | ⟨hunread, -, hreads⟩
        · -- found before: the entry is not looked at again
          rw [(Loader.load_of_found (ihRead text h) _).1]
          exact ihRead text h
        · rw [(Loader.load_of_readsAs (ihUnread hunread) hreads).1]

/-- What an event yields if a loading finds the registrations. -/
def yieldOf (r : Registrations) : Event → Yield
  | .put _ => .nothing
  | .remove => .nothing
  | .load => .registrations r
  | .components true => .classes r.classes
  | .components false => .classes (.ok [])

theorem yield_of_not_loading (r : Registrations) {event : Event} (h : event.isLoading = false) :
    s.yield events event = yieldOf r event := by
  cases event with
  | components hostPresent =>
    cases hostPresent with
    | true => cases h
    | false => rfl
  | load => cases h
  | _ => rfl

theorem yield_eq {event : Event} (h : event.isLoading = true) :
    s.yield events event
      = yieldOf ((s.after events).loader.load (entryAfter s.entry events)).registrations event := by
  rw [← entry_after]
  cases event with
  | load => rfl
  | components hostPresent =>
    cases hostPresent with
    | true => rfl
    | false => cases h
  | _ => cases h

variable {s events event}

theorem yields_of_unread (hs : s.loader.found = none) (h : Unread s.entry (events ++ [event])) :
    s.yield events event = yieldOf .empty event := by
  obtain ⟨hunread, hevent⟩ := unread_snoc_iff.mp h
  cases hloading : event.isLoading with
  | false => exact s.yield_of_not_loading events _ hloading
  | true =>
    rw [yield_eq s events hloading,
      (Loader.load_of_not_readsAs ((s.found_after events hs).1 hunread) (hevent hloading)).2]

theorem yields_of_firstRead (hs : s.loader.found = none) {text : Text}
    (h : FirstRead s.entry (events ++ [event]) text) : s.yield events event = yieldOf (.ofText text) event := by
  cases hloading : event.isLoading with
  | false => exact s.yield_of_not_loading events _ hloading
  | true =>
    rw [yield_eq s events hloading]
    rcases firstRead_snoc_iff.mp h with h | ⟨hunread, -, hreads⟩
    · rw [(Loader.load_of_found ((s.found_after events hs).2 text h) _).2]
    · rw [(Loader.load_of_readsAs ((s.found_after events hs).1 hunread) hreads).2]

def fresh (path fileName pluginName : Text) (entry : Option Entry) : Site :=
  ⟨⟨path, fileName, pluginName, none⟩, entry⟩

end Site

/-! ### What a run yields -/

/-- What an event yields for the registrations of a plugin file. The bot gets all of their classes, or a fault because
one of the names cannot be shown. -/
inductive Shows (r : Registrations) : Event → Yield → Prop where
  | put (e : Entry) : Shows r (.put e) .nothing
  | remove : Shows r .remove .nothing
  | load : Shows r .load (.registrations r)
  | classes {cs : List ComponentClass} (nameable : ∀ x ∈ r.all, Nameable x.name) (shown : r.Shown cs) :
    Shows r (.components true) (.classes (.ok cs))
  | fault {f : Fault} {x : Registration} (mem : x ∈ r.all) (unnameable : ¬ Nameable x.name) (fault : NameFault f) :
    Shows r (.components true) (.classes (.error f))
  | hostMissing : Shows r (.components false) (.classes (.ok []))

theorem shows_empty (event : Event) : Shows .empty event (Site.yieldOf .empty event) := by
  cases event with
  | put e => exact .put e
  | remove => exact .remove
  | load => exact .load
  | components hostPresent =>
    cases hostPresent with
    | false => exact .hostMissing
    | true => exact .classes nofun ⟨[], [], rfl, .nil, .nil⟩

theorem shows_ofText (text : Text) (event : Event) :
    Shows (.ofText text) event (Site.yieldOf (.ofText text) event) := by
  cases event with
  | put e => exact .put e
  | remove => exact .remove
  | load => exact .load
  | components hostPresent =>
    cases hostPresent with
    | false => exact .hostMissing
    | true =>
      rw [Site.yieldOf]
      rcases classes_ofText text with ⟨cs, hcs, hshown, hnameable⟩ | ⟨f, hf, hfault, x, hx, hname⟩
      · rw [hcs]
        exact .classes hnameable hshown
      · rw [hf]
        exact .fault hx hname hfault

/-- **Runs of a loader.** Until a loading comes upon a file that can be read, every event yields what no registrations
yield, and nothing is kept. From the first such loading on, every event yields what the registrations of the text read
there yield, whatever is at the path by then. -/
theorem event_of_run_shows (path fileName pluginName : Text) (entry : Option Entry) (events : List Event)
    (event : Event) :
    (Unread entry (events ++ [event]) ∧
      ((Site.fresh path fileName pluginName entry).after (events ++ [event])).loader.found = none ∧
      Shows .empty event ((Site.fresh path fileName pluginName entry).yield events event)) ∨
    ∃ text, FirstRead entry (events ++ [event]) text ∧
      ((Site.fresh path fileName pluginName entry).after (events ++ [event])).loader.found = some (.ofText text) ∧
      Shows (.ofText text) event ((Site.fresh path fileName pluginName entry).yield events event) := by
  have hfound := (Site.fresh path fileName pluginName entry).found_after (events ++ [event]) rfl
  rcases unread_or_firstRead entry (events ++ [event]) with h | ⟨text, h⟩
  · refine .inl ⟨h, hfound.1 h, ?_⟩
    rw [Site.yields_of_unread rfl h]
    exact shows_empty event
  · refine .inr ⟨text, h, hfound.2 text h, ?_⟩
    rw [Site.yields_of_firstRead rfl h]
    exact shows_ofText text event

def zeroNamed : Text := "mai.reply('/a', 'b', 'x\x00y');"

theorem ofText_zeroNamed : Registrations.ofText zeroNamed = ⟨[⟨"x\x00y", .reply "/a" "b"⟩], []⟩ := by
  decide +kernel

theorem firstRead_zeroNamed {event : Event} (h : event.isLoading = true) :
    FirstRead (some (.file (.text zeroNamed))) [event] zeroNamed :=
  ⟨[], event, [], rfl, h, ⟨.text zeroNamed, rfl, congrArg Except.ok (by decide)⟩, unread_nil⟩

/-- The command is found, but there is no class for it. -/
theorem zeroNamed_no_class :
    (Site.fresh "/p/plugin.js" "plugin.js" "p" (some (.file (.text zeroNamed)))).yield [] .load
        = .registrations ⟨[⟨"x\x00y", .reply "/a" "b"⟩], []⟩ ∧
      (Site.fresh "/p/plugin.js" "plugin.js" "p" (some (.file (.text zeroNamed)))).yield [] (.components true)
        = .classes (.error (.badValue (.other "type name must not contain null characters"))) := by
  constructor
  · rw [Site.yields_of_firstRead rfl (firstRead_zeroNamed rfl), ofText_zeroNamed]
    rfl
  · rw [Site.yields_of_firstRead rfl (firstRead_zeroNamed rfl), ofText_zeroNamed]
    rfl

end PluginKit.Bridge
