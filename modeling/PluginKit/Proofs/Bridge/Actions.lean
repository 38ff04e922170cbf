import PluginKit.Proofs.Bridge.ObjectFields

/-!
# Actions with an object literal

An action is written with its name, its description, its conditions, its parameters, which are an object of their own,
and its types (`ActionCall`). The object literal is read up to its first closing brace, and that is the one of the
parameters. So the fields before them are found; the parameters, which are not closed in what was read, and the types,
which are behind it, never are (`actions_kept_iff`).
-/

namespace PluginKit.Bridge

open Text List

variable {s t : Text} {items : List Text}

variable {gap before key : Text} {calls : List ActionCall}

/-! ### Actions as they are written -/

/-- An action in the text of a plugin file. -/
structure ActionCall where
  name : Text
  description : Text
  require : List Text
  parameters : List (Text × Text)
  types : List Text
  gap : Text
  behind : Text

def quotedList (items : List Text) : Text := join ", " (items.map apostrophized)

def keyedList (gap : Text) (entries : List (Text × Text)) : Text :=
  join ("," ++ gap) (entries.map fun e => e.1 ++ ": " ++ apostrophized e.2)

/-- The name, the description and the conditions of an action as they are written. -/
def ActionCall.textsText (a : ActionCall) : Text :=
  a.gap ++ "name: " ++ apostrophized a.name ++ "," ++
  a.gap ++ "description: " ++ apostrophized a.description ++ "," ++
  a.gap ++ "require: [" ++ quotedList a.require ++ "],"

def ActionCall.parametersText (a : ActionCall) : Text :=
  a.gap ++ "parameters: \x7b" ++ a.gap ++ keyedList a.gap a.parameters ++ a.gap ++ "\x7d,"

def ActionCall.functionText (a : ActionCall) : Text :=
  a.gap ++ "types: [" ++ quotedList a.types ++ "]," ++ a.gap ++ "execute: async (ctx) => \x7b\x7d"

def ActionCall.text (a : ActionCall) : Text :=
  "mai.action(\x7b" ++ a.textsText ++ a.parametersText ++ a.functionText ++ a.gap ++ "\x7d);" ++ a.behind

/-- A text that is not empty and has no quotes, colons, braces and brackets. -/
def PlainText (s : Text) : Prop := s ≠ [] ∧ ∀ c ∈ s, isQuote c = false ∧ c ∉ (":\x7b\x7d[]" : Text)

theorem PlainText.unquoted (h : PlainText s) : ∀ c ∈ s, isQuote c = false := fun c hc => (h.2 c hc).1

/-- The parts of an action do not run over their ends. -/
structure ActionCall.Plain (a : ActionCall) : Prop where
  name : PlainText a.name
  description : PlainText a.description
  require_ne_nil : a.require ≠ []
  require : ∀ s ∈ a.require, PlainText s
  parameters : ∀ e ∈ a.parameters, (∀ c ∈ e.1, isWord c = true) ∧ PlainText e.2
  types : ∀ s ∈ a.types, PlainText s
  gap : AllBlank a.gap
  behind : AllBlank a.behind

/-- The action with all that is written about it. -/
def ActionCall.registration (a : ActionCall) : Registration :=
  ⟨a.name, .object ⟨some a.name, some a.description, none, some a.require, some a.parameters, some a.types⟩⟩

/-- The action without its parameters and its types. -/
def ActionCall.found (a : ActionCall) : Registration :=
  ⟨a.name, .object ⟨some a.name, some a.description, none, some a.require, none, none⟩⟩

/-! ### Characters that are not there -/

def isMark (c : CodePoint) : Bool := (":\x7b\x7d]" : Text).contains c

def Unmarked (s : Text) : Prop := ∀ c ∈ s, isMark c = false

theorem Unmarked.append (hs : Unmarked s) (ht : Unmarked t) : Unmarked (s ++ t) :=
  forall_mem_append.mpr ⟨hs, ht⟩

theorem Unmarked.not_mem (h : Unmarked s) {c : CodePoint} (hc : isMark c = true) : c ∉ s := by
  intro hm
  rw [h c hm] at hc
  cases hc

theorem unmarked_of_allBlank (h : AllBlank s) : Unmarked s := by
  intro c hc
  by_contra hm
  rw [Bool.not_eq_false, isMark, contains_iff_mem] at hm
  have hall : ∀ d ∈ (":\x7b\x7d]" : Text), isBlank d = false := by decide
  have hblank := h c hc
  rw [hall c hm] at hblank
  cases hblank

theorem unmarked_apostrophized (h : PlainText s) : Unmarked (apostrophized s) := by
  have hs : Unmarked s := by
    intro c hc
    by_contra hm
    rw [Bool.not_eq_false, isMark, contains_iff_mem] at hm
    have hall : ∀ d ∈ (":\x7b\x7d]" : Text), d ∈ (":\x7b\x7d[]" : Text) := by decide
    exact (h.2 c hc).2 (hall c hm)
  exact forall_mem_cons.mpr ⟨rfl, hs.append (by unfold Unmarked; decide)⟩

theorem unmarked_quotedList (h : ∀ s ∈ items, PlainText s) : Unmarked (quotedList items) := by
  refine (forall_mem_join_iff (by decide)).mpr fun s hs => ?_
  obtain ⟨t, ht, rfl⟩ := mem_map.mp hs
  exact unmarked_apostrophized (h t ht)

theorem unmarked_of_isWord (h : ∀ c ∈ s, isWord c = true) : Unmarked s := by
  intro c hc
  by_contra hm
  rw [Bool.not_eq_false, isMark, contains_iff_mem] at hm
  have hall : ∀ d ∈ (":\x7b\x7d]" : Text), isWord d = false := by decide
  have hword := h c hc
  rw [hall c hm] at hword
  cases hword

theorem brace_not_mem_keyedList (hgap : AllBlank gap) {entries : List (Text × Text)}
    (h : ∀ e ∈ entries, (∀ c ∈ e.1, isWord c = true) ∧ PlainText e.2) : .scalar '\x7d' ∉ keyedList gap entries := by
  have hentries : ∀ c ∈ keyedList gap entries, c ≠ .scalar '\x7d' := by
    refine (forall_mem_join_iff ?_).mpr fun s hs => ?_
    · refine forall_mem_append.mpr ⟨by decide, fun c hc => ?_⟩
      rintro rfl
      exact (unmarked_of_allBlank hgap).not_mem rfl hc
    · obtain ⟨e, he, rfl⟩ := mem_map.mp hs
      obtain ⟨hword, htext⟩ := h e he
      intro c hc
      rintro rfl
      rcases mem_append.mp hc with hc | hc
      · rcases mem_append.mp hc with hc | hc
        · exact (unmarked_of_isWord hword).not_mem rfl hc
        · exact absurd hc (by decide)
      · exact (unmarked_apostrophized htext).not_mem rfl hc
  exact fun hm => hentries _ hm rfl

/-! ### Texts of a list -/

theorem quotedTexts_quotedList (h : ∀ s ∈ items, PlainText s) : quotedTexts (quotedList items) = items := by
  induction items with
  | nil => rfl
  | cons s items ih =>
    obtain ⟨hs, hitems⟩ := forall_mem_cons.mp h
    cases items with
    | nil =>
      have hread := quotedText_apostrophized hs.1 hs.unquoted []
      rw [← append_nil (quotedList [s])]
      exact findAll_of_some (cons_ne_nil _ _) hread
    | cons t items =>
      have hlist : quotedList (s :: t :: items)
          = apostrophized s ++ .scalar ',' :: .scalar ' ' :: quotedList (t :: items) := by
        simp [quotedList, join, Text.ofString]
      have hne : apostrophized s ≠ [] := cons_ne_nil _ _
      rw [quotedTexts, hlist, findAll_of_some hne (quotedText_apostrophized hs.1 hs.unquoted _),
        findAll_of_none (quotedText_other (by decide) _), findAll_of_none (quotedText_other (by decide) _)]
      exact congrArg (List.cons s) (ih hitems)

/-! ### Fields of an action -/

/-- Keys with texts as fields. -/
def textEntries (gap : Text) : List (Text × Text) → List Entry
  | [] => []
  | e :: entries => ⟨[], e.1, apostrophized e.2⟩ :: entries.map fun e => ⟨"," ++ gap, e.1, apostrophized e.2⟩

theorem flatMap_textEntries (gap : Text) (entries : List (Text × Text)) :
    (textEntries gap entries).flatMap Entry.text = keyedList gap entries := by
  cases entries with
  | nil => rfl
  | cons e entries =>
    rw [keyedList, map_cons, join_cons, flatMap_map, textEntries, flatMap_cons, flatMap_map]
    simp [Entry.text, Text.ofString]

theorem forall_mem_textEntries {entries : List (Text × Text)} {p : Entry → Prop}
    (h : ∀ e ∈ entries, ∀ before ∈ ([[], "," ++ gap] : List Text), p ⟨before, e.1, apostrophized e.2⟩) :
    ∀ e ∈ textEntries gap entries, p e := by
  cases entries with
  | nil => exact nofun
  | cons e entries =>
    obtain ⟨he, hentries⟩ := forall_mem_cons.mp h
    refine forall_mem_cons.mpr ⟨he _ (by simp), forall_mem_map.mpr fun e he => hentries e he _ (by simp)⟩

theorem clear_text (hbefore : .scalar ':' ∉ before) (hkey : .scalar ':' ∉ key) (h : PlainText s) :
    Entry.Clear ⟨before, key, apostrophized s⟩ :=
  ⟨hbefore, hkey, (unmarked_apostrophized h).not_mem rfl, _, rfl, by decide⟩

theorem clear_list (hbefore : .scalar ':' ∉ before) (hkey : .scalar ':' ∉ key)
    (h : ∀ s ∈ items, PlainText s) : Entry.Clear ⟨before, key, "[" ++ quotedList items ++ "]"⟩ :=
  ⟨hbefore, hkey, by simp [(unmarked_quotedList h).not_mem (c := .scalar ':') rfl, Text.ofString], _, rfl, by decide⟩

theorem clear_textEntries (hgap : AllBlank gap) {entries : List (Text × Text)}
    (h : ∀ e ∈ entries, (∀ c ∈ e.1, isWord c = true) ∧ PlainText e.2) : ∀ e ∈ textEntries gap entries, e.Clear := by
  refine forall_mem_textEntries fun e he before hbefore => ?_
  refine clear_text ?_ ((unmarked_of_isWord (h e he).1).not_mem rfl) (h e he).2
  have hcolon : .scalar ':' ∉ gap := Written.not_mem_of_allBlank hgap (by decide)
  simp only [mem_cons, not_mem_nil, or_false] at hbefore
  rcases hbefore with rfl | rfl
  · exact not_mem_nil
  · simp [hcolon, Text.ofString]

theorem quotedList_ne_nil (h : items ≠ []) : quotedList items ≠ [] := by
  obtain ⟨s, items, rfl⟩ := exists_cons_of_ne_nil h
  rw [quotedList, map_cons, join_cons]
  exact cons_ne_nil _ _

/-- A list of texts is read up to its bracket. -/
theorem bracketed_quotedList (hne : items ≠ []) (h : ∀ s ∈ items, PlainText s) (t : Text) :
    bracketed '[' ']' ("[" ++ quotedList items ++ "]" ++ t) = some (quotedList items, t) := by
  have hread : bracketed '[' ']' (.scalar '[' :: (quotedList items ++ .scalar ']' :: t)) = some (quotedList items, t) :=
    bracketed_append (quotedList_ne_nil hne) ((unmarked_quotedList h).not_mem rfl) t
  simpa [Text.ofString] using hread

/-! ### Searching an action -/

namespace ActionCall

/-- The fields before the first closing brace. -/
def entries (a : ActionCall) : List Entry :=
  [⟨a.gap, "name", apostrophized a.name⟩, ⟨"," ++ a.gap, "description", apostrophized a.description⟩,
    ⟨"," ++ a.gap, "require", "[" ++ quotedList a.require ++ "]"⟩, ⟨"," ++ a.gap, "parameters", "\x7b" ++ a.gap⟩] ++
    textEntries a.gap a.parameters

/-- The object literal up to its first closing brace. -/
def block (a : ActionCall) : Text := a.entries.flatMap Entry.text ++ a.gap

theorem block_eq (a : ActionCall) : a.block = a.textsText ++ a.gap ++ "parameters: \x7b" ++ a.gap ++
    keyedList a.gap a.parameters ++ a.gap := by
  simp [block, entries, textsText, flatMap_textEntries, Entry.text, Text.ofString]

section
variable {a : ActionCall} (ha : a.Plain)
include ha

theorem clear_entries : ∀ e ∈ a.entries, e.Clear := by
  have hgap : .scalar ':' ∉ a.gap := Written.not_mem_of_allBlank ha.gap (by decide)
  have hcomma : .scalar ':' ∉ ("," : Text) ++ a.gap := by simp [hgap, Text.ofString]
  have hkey : .scalar ':' ∉ ("parameters" : Text) := by decide
  refine forall_mem_append.mpr ⟨?_, clear_textEntries ha.gap ha.parameters⟩
  simp only [forall_mem_cons]
  exact ⟨clear_text hgap (by decide) ha.name, clear_text hcomma (by decide) ha.description,
    clear_list hcomma (by decide) ha.require, ⟨hcomma, hkey, by simp [hgap, Text.ofString], _, rfl, by decide⟩,
    nofun⟩

theorem brace_not_mem_block : .scalar '\x7d' ∉ a.block := by
  have hbrace {s : Text} (h : Unmarked s) : .scalar '\x7d' ∉ s := h.not_mem rfl
  simp [block_eq, textsText, hbrace (unmarked_of_allBlank ha.gap), hbrace (unmarked_apostrophized ha.name),
    hbrace (unmarked_apostrophized ha.description), hbrace (unmarked_quotedList ha.require),
    brace_not_mem_keyedList ha.gap ha.parameters, Text.ofString]

open Entry in
theorem fields_block : Fields.ofText a.block = ⟨some a.name, some a.description, none, some a.require, none, none⟩ := by
  have hclear := clear_entries ha
  have hgap : .scalar ':' ∉ a.gap := Written.not_mem_of_allBlank ha.gap (by decide)
  have hparameters {α : Type} {key : Text} {value : Scanner α} (h : ∀ s, value (.scalar '\'' :: s) = none) :
      ∀ e ∈ textEntries a.gap a.parameters, e.Passed key value :=
    forall_mem_textEntries fun _ _ _ _ => passed_of_first rfl h
  have hname : findFirst? (keyed "name" quotedText) a.block = some a.name :=
    findFirst?_entry [] rfl hclear nofun rfl
      ⟨_, quotedText_apostrophized ha.name.1 ha.name.unquoted _⟩
  have hdescription : findFirst? (keyed "description" quotedText) a.block = some a.description := by
    refine findFirst?_entry [_] rfl hclear ?_ rfl
      ⟨_, quotedText_apostrophized ha.description.1 ha.description.unquoted _⟩
    exact forall_mem_singleton.mpr (passed_of_key rfl rfl (by decide) (by decide) (by decide))
  have hpattern : findFirst? (keyed "pattern" slashed) a.block = none := by
    refine findFirst?_no_entry (by decide) hclear (forall_mem_append.mpr ⟨?_, hparameters ?_⟩) hgap
    · simp only [forall_mem_cons]
      exact ⟨passed_of_first rfl (slashed_other (by decide)), passed_of_first rfl (slashed_other (by decide)),
        passed_of_first rfl (slashed_other (by decide)), passed_of_first rfl (slashed_other (by decide)),
        nofun⟩
    · exact slashed_other (by decide)
  have hrequire : findFirst? (keyed "require" (bracketed '[' ']')) a.block = some (quotedList a.require) := by
    refine findFirst?_entry [_, _] rfl hclear ?_ rfl ⟨_, bracketed_quotedList ha.require_ne_nil ha.require _⟩
    simp only [forall_mem_cons]
    exact ⟨passed_of_first rfl (Written.bracketed_other (by decide)),
      passed_of_first rfl (Written.bracketed_other (by decide)), nofun⟩
  -- the closing brace is not in the block
  have hbraces : findFirst? (keyed "parameters" (bracketed '\x7b' '\x7d')) a.block = none :=
    findFirst?_bracketed_of_not_mem (brace_not_mem_block ha)
  have htypes : findFirst? (keyed "types" (bracketed '[' ']')) a.block = none := by
    refine findFirst?_no_entry (by decide) hclear (forall_mem_append.mpr ⟨?_, hparameters ?_⟩) hgap
    · simp only [forall_mem_cons]
      exact ⟨passed_of_first rfl (Written.bracketed_other (by decide)),
        passed_of_first rfl (Written.bracketed_other (by decide)),
        passed_of_key rfl rfl (by decide) (by decide) (by decide),
        passed_of_first rfl (Written.bracketed_other (by decide)), nofun⟩
    · exact Written.bracketed_other (by decide)
  rw [Fields.ofText, hname, hdescription, hpattern, hrequire, hbraces, htypes]
  simp only [Option.map_some, Option.map_none, quotedTexts_quotedList ha.require]

end

/-! ### Finding the actions -/

def back (a : ActionCall) : Text :=
  "," ++ a.gap ++ "types: [" ++ quotedList a.types ++ "]," ++ a.gap ++ "execute: async (ctx) => "

def ending (a : ActionCall) : Text := "\x7b\x7d" ++ a.gap ++ "\x7d);" ++ a.behind

theorem text_eq (a : ActionCall) (t : Text) : a.text ++ t
    = ("mai.action" : Text) ++ ([] ++ .scalar '(' :: ([] ++ .scalar '\x7b' :: (a.block ++ .scalar '\x7d' ::
      (a.back ++ (a.ending ++ t))))) := by
  simp [text, block_eq, parametersText, functionText, back, ending, Text.ofString]

section
variable {a : ActionCall} (ha : a.Plain)
include ha

theorem objectCall_text (t : Text) :
    objectCall "mai.action" (a.text ++ t) = some (a.block, a.back ++ (a.ending ++ t)) := by
  have hne : a.block ≠ [] := by
    intro hb
    have := congrArg List.length hb
    simp [block, entries, Entry.text] at this
  have hopen := openCall_append "mai.action" allBlank_nil allBlank_nil (s := .scalar '\x7b' :: (a.block ++ .scalar '\x7d' ::
    (a.back ++ (a.ending ++ t)))) (avoids_cons (by decide))
  simp only [text_eq, objectCall, hopen, Option.bind_eq_bind, Option.bind_some]
  exact bracketed_append hne (brace_not_mem_block ha) _

theorem findAll_back (ht : BeginsWith (.scalar 'm') t) :
    findAll (objectCall "mai.action") (a.back ++ (a.ending ++ t)) = findAll (objectCall "mai.action") t := by
  have hgap := unmarked_of_allBlank ha.gap
  have hback : .scalar '\x7b' ∉ a.back := by
    have hbrace {s : Text} (h : Unmarked s) : .scalar '\x7b' ∉ s := h.not_mem rfl
    simp [back, hbrace hgap, hbrace (unmarked_quotedList ha.types), Text.ofString]
  have hpoint : .scalar '.' ∉ a.ending := by
    have hblank {s : Text} (h : AllBlank s) : .scalar '.' ∉ s := Written.not_mem_of_allBlank h (by decide)
    simp [ending, hblank ha.gap, hblank ha.behind, Text.ofString]
  rw [findAll_skip (u := a.back)]
  · have hmark : NeedsMark "mai." (objectCall "mai.action") :=
      (calls_object _).needsMark (by simp [Written.functions])
    exact findAll_quiet hmark (by decide) (occursIn_of_not_mem (c := .scalar '.') (by decide) hpoint) ht
  · -- the bracket of a call would have to stand where the arrow of the function stands
    refine fun w _ hw => Option.eq_none_iff_forall_ne_some.mpr fun r hr => ?_
    have hend := endsWithKey_of_objectCall (by decide) (fun h => hback (hw.subset h)) hr
    have hback : a.back = ("," ++ a.gap ++ "types: [" ++ quotedList a.types ++ "]," ++ a.gap ++
        "execute: async (ctx) ") ++ (("=>" : Text) ++ (" " : Text)) := by
      simp [back, Text.ofString]
    refine absurd (hend.of_suffix hw) ?_
    rw [hback]
    exact not_endsWithKey rfl rfl (by unfold AllBlank; decide) (by decide) (by decide) (by decide)

end

theorem beginsWith_flatMap (calls : List ActionCall) : BeginsWith (.scalar 'm') (calls.flatMap text) := by
  cases calls with
  | nil => exact .inl rfl
  | cons a calls => exact .inr rfl

/-- **The actions are found in their order**, each up to the end of its parameters. -/
theorem findAll_flatMap (h : ∀ a ∈ calls, a.Plain) :
    findAll (objectCall "mai.action") (calls.flatMap text) = calls.map block := by
  induction calls with
  | nil => rfl
  | cons a calls ih =>
    obtain ⟨ha, hcalls⟩ := forall_mem_cons.mp h
    have hsplit : a.text ++ calls.flatMap text = ("mai.action" : Text) ++ .scalar '(' :: .scalar '\x7b' ::
        (a.block ++ [.scalar '\x7d']) ++ (a.back ++ (a.ending ++ calls.flatMap text)) := by
      simp [text_eq]
    have hread := objectCall_text ha (calls.flatMap text)
    rw [hsplit] at hread
    rw [flatMap_cons, hsplit, findAll_of_some (by simp) hread, findAll_back ha (beginsWith_flatMap calls),
      ih hcalls, map_cons]

theorem actions_flatMap (h : ∀ a ∈ calls, a.Plain) :
    (Registrations.ofText (calls.flatMap text)).actions = calls.map found := by
  rw [Registrations.ofText, findAll_flatMap h, objectRegistrations, filterMap_map]
  rw [← filterMap_eq_map]
  refine filterMap_congr fun a ha => ?_
  simp only [Function.comp_apply, fields_block (h a ha)]
  rfl

/-- **Actions lose their parameters and their types.** Over every file of actions in the documented form the actions
are reported in their order with their names, descriptions and conditions, but without parameters and types. So what is
reported is what is written only if there are no actions. -/
theorem actions_kept_iff {calls : List ActionCall} (h : ∀ a ∈ calls, a.Plain) :
    (Registrations.ofText (calls.flatMap text)).actions = calls.map found ∧
      ((Registrations.ofText (calls.flatMap text)).actions = calls.map registration ↔ calls = []) := by
  rw [actions_flatMap h]
  refine ⟨rfl, fun hsame => ?_, fun hnil => by rw [hnil]; rfl⟩
  cases calls with
  | nil => rfl
  | cons a calls =>
    have hfirst := (List.cons.inj hsame).1
    simp [found, registration] at hfirst

def greetCall : ActionCall where
  name := "greet"
  description := "问候用户, mai.action("
  require := ["当有人打招呼时", "hello"]
  parameters := [("user_name", "用户名字"), ("types", "x")]
  types := ["text", "image"]
  gap := "\n  "
  behind := "\n"

def tellCall : ActionCall where
  name := "tell"
  description := "d"
  require := ["r"]
  parameters := [("k", "v")]
  types := ["text"]
  gap := " "
  behind := ""

theorem plain_greetCall : greetCall.Plain := by
  constructor <;> first | decide | (unfold PlainText; decide) | (unfold AllBlank; decide)

theorem plain_tellCall : tellCall.Plain := by
  constructor <;> first | decide | (unfold PlainText; decide) | (unfold AllBlank; decide)

theorem greet_tell_lose :
    (∀ a ∈ [greetCall, tellCall], a.Plain) ∧
      (Registrations.ofText ([greetCall, tellCall].flatMap text)).actions = [greetCall.found, tellCall.found] ∧
      (Registrations.ofText ([greetCall, tellCall].flatMap text)).actions
        ≠ [greetCall.registration, tellCall.registration] := by
  have h : ∀ a ∈ [greetCall, tellCall], a.Plain := by
    simp only [List.forall_mem_cons]
    exact ⟨plain_greetCall, plain_tellCall, fun _ h => by cases h⟩
  exact ⟨h, (actions_kept_iff h).1, fun hsame => absurd ((actions_kept_iff h).2.mp hsame) (List.cons_ne_nil _ _)⟩

def tellText : Text :=
  "mai.action(\x7b name: 'tell', description: 'd', require: ['r'], parameters: \x7b k: 'v' \x7d, " ++
    "types: ['text'], execute: async (ctx) => \x7b\x7d \x7d);"

theorem text_tellCall : tellCall.text = tellText := by
  simp [tellCall, tellText, text, textsText, parametersText, functionText, apostrophized, quotedList, keyedList, join,
    Text.ofString]

/-- Its parameters and its types are not reported. -/
theorem tellText_not_kept : (Registrations.ofText tellText).actions ≠ [⟨"tell", .object ⟨some "tell", some "d", none,
    some ["r"], some [("k", "v")], some ["text"]⟩⟩] := by
  have hplain : ∀ a ∈ [tellCall], a.Plain := by simpa using plain_tellCall
  have hfound := actions_flatMap hplain
  rw [List.flatMap_singleton, text_tellCall] at hfound
  rw [hfound]
  decide

end ActionCall

end PluginKit.Bridge
