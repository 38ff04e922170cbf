import PluginKit.Proofs.Bridge.Actions

/-!
# Object literals with all fields

The text of an object literal can be written with all fields that are understood (`ObjectBlock`). Reading it undoes the
writing (`ofText_text`), whatever the parameters are called. Each field is looked for on its own and counts only where
its value begins in its own way, so a parameter under the key of a field is not taken for that field. The keys of the
parameters and their texts are looked for apart from each other, but both once for each colon, and so they are paired
as they were written.
-/

namespace PluginKit.Bridge

open Text List

/-! ### Keys of parameters -/

section
variable {s u v w key : Text} {entries acc : List (Text × Text)}

theorem exists_skipQuote (s : Text) : ∃ q, s = q ++ skipQuote s ∧ .scalar ',' ∉ q := by
  cases s with
  | nil => exact ⟨[], rfl, not_mem_nil⟩
  | cons c s =>
    rw [skipQuote]
    split
    · next hc =>
      refine ⟨[c], rfl, ?_⟩
      rw [mem_singleton]
      rintro rfl
      exact absurd hc (by decide)
    · exact ⟨[], rfl, not_mem_nil⟩

/-- A key of a parameter goes up to a colon, and there is no comma in it. -/
theorem exists_of_parameterKey {r : Text × Text} (h : parameterKey s = some r) :
    ∃ u, s = u ++ .scalar ':' :: r.2 ∧ .scalar ',' ∉ u := by
  simp only [parameterKey, Option.bind_eq_bind, Option.bind_eq_some_iff] at h
  obtain ⟨⟨key, s₁⟩, hrun, s₂, hcolon, hr⟩ := h
  cases hr
  obtain ⟨q, hq, hqc⟩ := exists_skipQuote s
  obtain ⟨q', hq', hqc'⟩ := exists_skipQuote s₁
  obtain ⟨pad, hpad, hs₁⟩ := eq_append_of_afterBlanks hcolon
  refine ⟨q ++ key ++ q' ++ pad, ?_, ?_⟩
  · rw [hq, eq_append_of_takeRun hrun]
    nth_rewrite 1 [hq']
    rw [hs₁]
    simp [Text.ofString]
  · have hkey : .scalar ',' ∉ key := fun hm => absurd ((run_of_takeRun hrun).2 _ hm) (by decide)
    have hblank : .scalar ',' ∉ pad := Written.not_mem_of_allBlank hpad (by decide)
    simp [hqc, hkey, hqc', hblank]

theorem parameterKey_append (hne : key ≠ []) (hkey : ∀ c ∈ key, isWord c = true) (t : Text) :
    parameterKey (key ++ .scalar ':' :: t) = some (key, t) := by
  have hskip : skipQuote (key ++ .scalar ':' :: t) = key ++ .scalar ':' :: t := by
    obtain ⟨c, cs, rfl⟩ := exists_cons_of_ne_nil hne
    refine if_neg fun hc => ?_
    have hword := hkey c mem_cons_self
    rw [isQuote, Bool.or_eq_true, beq_iff_eq, beq_iff_eq] at hc
    rcases hc with rfl | rfl
    · exact absurd hword (by decide)
    · exact absurd hword (by decide)
  have hrun : takeRun isWord (key ++ .scalar ':' :: t) = some (key, .scalar ':' :: t) :=
    takeRun_append hkey hne (avoids_cons (by decide))
  have hcolon : afterBlanks ":" (.scalar ':' :: t) = some t := afterBlanks_append allBlank_nil (by decide) t
  have hquote : skipQuote (.scalar ':' :: t) = .scalar ':' :: t := rfl
  simp only [parameterKey, hskip, hrun, hquote, hcolon, Option.bind_eq_bind, Option.bind_some]
  rfl

/-- No key begins before a comma that comes before the next colon. -/
theorem findAll_parameterKey_comma (hu : .scalar ':' ∉ u) (v : Text) :
    findAll parameterKey (u ++ .scalar ',' :: v) = findAll parameterKey v := by
  rw [← singleton_append, ← append_assoc]
  refine findAll_skip fun w hw hs => Option.eq_none_iff_forall_ne_some.mpr fun r hr => ?_
  obtain ⟨x, hx, hcomma⟩ := exists_of_parameterKey hr
  rcases eq_nil_or_concat w with rfl | ⟨w, c, rfl⟩
  · exact hw rfl
  · obtain ⟨y, hy⟩ := hs
    rw [concat_eq_append, ← append_assoc] at hy
    obtain ⟨hyw, hc⟩ := append_inj' hy rfl
    cases hc
    have hcolon : .scalar ':' ∉ w := fun hm => hu (hyw ▸ mem_append_right y hm)
    -- either the comma is in the key or the colon in what stands before the comma
    rw [concat_eq_append, append_assoc, singleton_append] at hx
    rcases append_eq_append_iff.mp hx with ⟨z, hz, ht⟩ | ⟨z, hz, ht⟩
    · cases z with
      | nil => cases ht
      | cons d z =>
        cases ht
        exact hcomma (by rw [hz]; simp)
    · cases z with
      | nil => cases ht
      | cons d z =>
        obtain rfl := (List.cons.inj ht).1
        exact hcolon (by rw [hz]; simp)

theorem findAll_parameterKey_of_not_mem (hu : .scalar ':' ∉ u) : findAll parameterKey u = [] := by
  have hskip : findAll parameterKey (u ++ []) = findAll parameterKey [] := by
    refine findAll_skip fun w _ hw => Option.eq_none_iff_forall_ne_some.mpr fun r hr => ?_
    obtain ⟨x, hx, -⟩ := exists_of_parameterKey hr
    rw [append_nil] at hx
    exact hu (hw.subset (by rw [hx]; simp))
  rw [append_nil] at hskip
  exact hskip

/-! ### Parameters -/

/-- A key of word characters with a plain text. -/
def PlainEntry (e : Text × Text) : Prop := e.1 ≠ [] ∧ (∀ c ∈ e.1, isWord c = true) ∧ PlainText e.2

/-- Entries behind others. -/
def moreEntries (entries : List (Text × Text)) : Text :=
  entries.flatMap fun e => .scalar ',' :: .scalar ' ' :: (e.1 ++ .scalar ':' :: .scalar ' ' :: apostrophized e.2)

theorem moreEntries_cons (e : Text × Text) (entries : List (Text × Text)) (t : Text) : moreEntries (e :: entries) ++ t =
    .scalar ',' :: .scalar ' ' :: (e.1 ++ .scalar ':' :: (.scalar ' ' :: apostrophized e.2 ++ (moreEntries entries ++ t))) := by
  simp [moreEntries]

theorem comma_keyedList (hne : entries ≠ []) (t : Text) :
    .scalar ',' :: .scalar ' ' :: (keyedList " " entries ++ t) = moreEntries entries ++ t := by
  obtain ⟨e, entries, rfl⟩ := exists_cons_of_ne_nil hne
  rw [moreEntries_cons]
  simp [keyedList, join_cons, moreEntries, flatMap_map, Text.ofString]

theorem PlainEntry.colon_not_mem {e : Text × Text} (h : PlainEntry e) : .scalar ':' ∉ .scalar ' ' :: apostrophized e.2 := by
  simp [(unmarked_apostrophized h.2.2).not_mem (c := .scalar ':') rfl]

theorem findAll_parameterKey (h : ∀ e ∈ entries, PlainEntry e) (hu : .scalar ':' ∉ u) :
    findAll parameterKey (u ++ (moreEntries entries ++ [.scalar ' '])) = entries.map Prod.fst := by
  induction entries generalizing u with
  | nil => exact findAll_parameterKey_of_not_mem (by simp [moreEntries, hu])
  | cons e entries ih =>
    obtain ⟨he, hentries⟩ := forall_mem_cons.mp h
    have hread (t : Text) : findAll parameterKey (e.1 ++ .scalar ':' :: t) = e.1 :: findAll parameterKey t := by
      rw [append_cons]
      refine findAll_of_some (by simp) ?_
      rw [← append_cons]
      exact parameterKey_append he.1 he.2.1 t
    rw [moreEntries_cons, findAll_parameterKey_comma hu, findAll_of_none rfl, hread, ih hentries he.colon_not_mem,
      map_cons]

theorem needsMark_parameterText : NeedsMark ":" parameterText := by
  intro s hs
  rw [parameterText, after_eq_none hs]
  rfl

theorem parameterText_append (h : PlainText s) (t : Text) :
    parameterText (.scalar ':' :: (.scalar ' ' :: apostrophized s ++ t)) = some (s, t) := by
  have hcolon (s : Text) : after ":" (.scalar ':' :: s) = some s := after_append ":" s
  simp only [parameterText, hcolon, Option.bind_eq_bind, Option.bind_some]
  exact (congrArg _ (skipBlanks_space (by decide) _)).trans (quotedText_apostrophized h.1 h.unquoted t)

theorem findAll_parameterText (h : ∀ e ∈ entries, PlainEntry e) (hu : .scalar ':' ∉ u) :
    findAll parameterText (u ++ (moreEntries entries ++ [.scalar ' '])) = entries.map Prod.snd := by
  have hskip {u v : Text} (hu : .scalar ':' ∉ u) (hv : BeginsWith (.scalar ':') v) :
      findAll parameterText (u ++ v) = findAll parameterText v :=
    findAll_quiet needsMark_parameterText not_mem_nil (occursIn_of_not_mem mem_cons_self hu) hv
  induction entries generalizing u with
  | nil =>
    rw [← append_nil (u ++ _), hskip (by simp [moreEntries, hu]) (.inl rfl)]
    rfl
  | cons e entries ih =>
    obtain ⟨he, hentries⟩ := forall_mem_cons.mp h
    have hbefore : .scalar ':' ∉ u ++ .scalar ',' :: .scalar ' ' :: e.1 := by
      simp [hu, (unmarked_of_isWord he.2.1).not_mem (c := .scalar ':') rfl]
    have hread (t : Text) : findAll parameterText (.scalar ':' :: (.scalar ' ' :: apostrophized e.2 ++ t))
        = e.2 :: findAll parameterText t := by
      rw [← cons_append]
      exact findAll_of_some (cons_ne_nil _ _) (parameterText_append he.2.2 t)
    rw [moreEntries_cons, ← cons_append, ← cons_append, ← append_assoc, hskip hbefore (.inr rfl), hread]
    exact congrArg _ (ih (u := []) hentries not_mem_nil)

theorem setKey_of_not_mem (h : key ∉ entries.map Prod.fst) : setKey key s entries = entries ++ [(key, s)] := by
  induction entries with
  | nil => rfl
  | cons e entries ih =>
    rw [map_cons, mem_cons, not_or] at h
    rw [setKey, if_neg (Ne.symm h.1), ih h.2, cons_append]

/-- Entries under different keys are set one behind the other. -/
theorem foldl_setKey (h : ((acc ++ entries).map Prod.fst).Nodup) :
    entries.foldl (fun acc e => setKey e.1 e.2 acc) acc = acc ++ entries := by
  induction entries generalizing acc with
  | nil => rw [foldl_nil, append_nil]
  | cons e entries ih =>
    have hnew : e.1 ∉ acc.map Prod.fst := by
      rw [map_append, map_cons] at h
      intro hmem
      exact disjoint_of_nodup_append h hmem mem_cons_self
    rw [append_cons] at h
    rw [foldl_cons, setKey_of_not_mem hnew, ih h, ← append_cons]

/-- **The parameters are paired as they were written.** -/
theorem parametersIn_keyedList (h : ∀ e ∈ entries, PlainEntry e) (hkeys : (entries.map Prod.fst).Nodup) :
    parametersIn (.scalar ' ' :: (keyedList " " entries ++ [.scalar ' '])) = entries := by
  rcases eq_or_ne entries [] with rfl | hne
  · rfl
  · have hcomma {scan : Scanner Text} (hscan : ∀ s, scan (.scalar ',' :: s) = none) :
        findAll scan (.scalar ' ' :: (keyedList " " entries ++ [.scalar ' ']))
          = findAll scan (moreEntries entries ++ [.scalar ' ']) := by
      rw [← comma_keyedList hne, findAll_of_none (hscan _)]
    have hnames := findAll_parameterKey (u := []) h not_mem_nil
    have htexts := findAll_parameterText (u := []) h not_mem_nil
    rw [parametersIn, hcomma fun _ => rfl, hcomma fun _ => rfl]
    rw [nil_append] at hnames htexts
    rw [hnames, htexts, ← zip_of_prod rfl rfl]
    exact foldl_setKey hkeys

end

/-! ### Object literals -/

/-- The fields of an object literal. No text in it has quotes, colons, braces or brackets, the regular expression has no
slash and no colon, and the parameters have different keys. -/
structure ObjectBlock where
  name : Text
  description : Text
  body : Text
  flags : Text
  require : List Text
  parameters : List (Text × Text)
  types : List Text
  plain_name : PlainText name
  plain_description : PlainText description
  body_ne_nil : body ≠ []
  plain_body : .scalar '/' ∉ body ∧ .scalar ':' ∉ body
  plain_flags : ∀ c ∈ flags, c ∈ ("gimsuy" : Text)
  require_ne_nil : require ≠ []
  plain_require : ∀ s ∈ require, PlainText s
  plain_parameters : ∀ e ∈ parameters, PlainEntry e
  nodup_keys : (parameters.map Prod.fst).Nodup
  types_ne_nil : types ≠ []
  plain_types : ∀ s ∈ types, PlainText s

namespace ObjectBlock

def text (b : ObjectBlock) : Text :=
  "name: " ++ apostrophized b.name ++ ", description: " ++ apostrophized b.description ++
  ", pattern: /" ++ b.body ++ "/" ++ b.flags ++ ", require: [" ++ quotedList b.require ++
  "], parameters: \x7b " ++ keyedList " " b.parameters ++ " \x7d, types: [" ++ quotedList b.types ++ "]"

def fields (b : ObjectBlock) : Fields :=
  ⟨some b.name, some b.description, some (b.body, b.flags), some b.require, some b.parameters, some b.types⟩

/-- The fields as a record. -/
def record (b : ObjectBlock) : Value :=
  .record [("name", .str b.name), ("description", .str b.description), ("pattern", .str b.body),
    ("pattern_flags", .str b.flags), ("require", textList b.require),
    ("parameters", .dict (b.parameters.map fun e => (.str e.1, .str e.2))), ("types", textList b.types)]

def entries (b : ObjectBlock) : List Entry :=
  ⟨[], "name", apostrophized b.name⟩ :: ⟨", ", "description", apostrophized b.description⟩ ::
  ⟨", ", "pattern", "/" ++ b.body ++ "/" ++ b.flags⟩ :: ⟨", ", "require", "[" ++ quotedList b.require ++ "]"⟩ ::
  ⟨", ", "parameters", "\x7b "⟩ :: (textEntries " " b.parameters ++
    [⟨" \x7d, ", "types", "[" ++ quotedList b.types ++ "]"⟩])

theorem text_eq (b : ObjectBlock) : b.text = b.entries.flatMap Entry.text ++ [] := by
  simp [text, entries, flatMap_textEntries, Entry.text, Text.ofString]

variable (b : ObjectBlock)

theorem clear_entries : ∀ e ∈ b.entries, e.Clear := by
  have hflags : .scalar ':' ∉ b.flags := fun h => absurd (b.plain_flags _ h) (by decide)
  have hpattern : Entry.Clear ⟨", ", "pattern", "/" ++ b.body ++ "/" ++ b.flags⟩ := by
    refine ⟨?_, ?_, ?_, _, rfl, by decide⟩ <;> simp [b.plain_body.2, hflags, Text.ofString]
  have hparameters : Entry.Clear ⟨", ", "parameters", "\x7b "⟩ := by
    refine ⟨?_, ?_, ?_, _, rfl, by decide⟩ <;> decide
  simp only [entries, forall_mem_append, forall_mem_cons]
  exact ⟨clear_text (by decide) (by decide) b.plain_name, clear_text (by decide) (by decide) b.plain_description,
    hpattern, clear_list (by decide) (by decide) b.plain_require, hparameters,
    clear_textEntries allBlank_space fun e he => (b.plain_parameters e he).2,
    clear_list (by decide) (by decide) b.plain_types, nofun⟩

/-! ### Reading the fields -/

open Entry

theorem findFirst?_name : findFirst? (keyed "name" quotedText) b.text = some b.name := by
  rw [text_eq]
  exact findFirst?_entry [] rfl b.clear_entries nofun rfl
    ⟨_, quotedText_apostrophized b.plain_name.1 b.plain_name.unquoted _⟩

theorem findFirst?_description : findFirst? (keyed "description" quotedText) b.text = some b.description := by
  rw [text_eq]
  refine findFirst?_entry [_] rfl b.clear_entries ?_ rfl
    ⟨_, quotedText_apostrophized b.plain_description.1 b.plain_description.unquoted _⟩
  exact forall_mem_singleton.mpr (passed_of_key rfl rfl (by decide) (by decide) (by decide))

theorem findFirst?_pattern : findFirst? (keyed "pattern" slashed) b.text = some (b.body, b.flags) := by
  have hflags : ∀ c ∈ b.flags, isFlag c = true := fun c hc => contains_iff_mem.mpr (b.plain_flags c hc)
  have hread (t : Text) : ∃ rest, slashed ("/" ++ b.body ++ "/" ++ b.flags ++ .scalar ',' :: t)
      = some ((b.body, b.flags), rest) := by
    have hoptions : (b.flags ++ .scalar ',' :: t).takeWhile isFlag = b.flags :=
      takeWhile_run hflags (avoids_cons (by decide))
    have hslashed := slashed_run b.body_ne_nil b.plain_body.1 (b.flags ++ .scalar ',' :: t)
    rw [hoptions] at hslashed
    exact ⟨_, by simpa [Text.ofString] using hslashed⟩
  rw [text_eq]
  refine findFirst?_entry [_, _] rfl b.clear_entries ?_ rfl (hread _)
  simp only [forall_mem_cons]
  exact ⟨passed_of_first rfl (slashed_other (by decide)), passed_of_first rfl (slashed_other (by decide)),
    nofun⟩

theorem findFirst?_require : findFirst? (keyed "require" (bracketed '[' ']')) b.text = some (quotedList b.require) := by
  have hpass {e : Entry} {c : CodePoint} (he : e.value.head? = some c) (hc : c ≠ '[') :
      e.Passed "require" (bracketed '[' ']') := passed_of_first he (Written.bracketed_other hc)
  rw [text_eq]
  refine findFirst?_entry [_, _, _] rfl b.clear_entries ?_ rfl ⟨_, bracketed_quotedList b.require_ne_nil b.plain_require _⟩
  simp only [forall_mem_cons]
  exact ⟨hpass rfl (by decide), hpass rfl (by decide), hpass rfl (by decide), nofun⟩

theorem findFirst?_parameters : findFirst? (keyed "parameters" (bracketed '\x7b' '\x7d')) b.text
    = some (.scalar ' ' :: (keyedList " " b.parameters ++ [.scalar ' '])) := by
  have hpass {e : Entry} {c : CodePoint} (he : e.value.head? = some c) (hc : c ≠ '\x7b') :
      e.Passed "parameters" (bracketed '\x7b' '\x7d') := passed_of_first he (Written.bracketed_other hc)
  have hclosed : .scalar '\x7d' ∉ .scalar ' ' :: (keyedList " " b.parameters ++ [.scalar ' ']) := by
    simp [brace_not_mem_keyedList allBlank_space fun e he => (b.plain_parameters e he).2]
  have hread (t : Text) : bracketed '\x7b' '\x7d' (("\x7b " : Text) ++ (keyedList " " b.parameters ++ (" \x7d" ++ t)))
      = some (.scalar ' ' :: (keyedList " " b.parameters ++ [.scalar ' ']), t) := by
    have hbraces : bracketed '\x7b' '\x7d' _ = _ := bracketed_append (cons_ne_nil _ _) hclosed t
    simpa [Text.ofString] using hbraces
  rw [text_eq]
  refine findFirst?_entry [_, _, _, _] rfl b.clear_entries ?_ rfl ⟨", types: [" ++ quotedList b.types ++ "]", ?_⟩
  · simp only [forall_mem_cons]
    exact ⟨hpass rfl (by decide), hpass rfl (by decide), hpass rfl (by decide), hpass rfl (by decide),
      nofun⟩
  · rw [flatMap_append, flatMap_textEntries, ← hread]
    simp [Entry.text, Text.ofString]

theorem findFirst?_types : findFirst? (keyed "types" (bracketed '[' ']')) b.text = some (quotedList b.types) := by
  have hpass {e : Entry} {c : CodePoint} (he : e.value.head? = some c) (hc : c ≠ '[') :
      e.Passed "types" (bracketed '[' ']') := passed_of_first he (Written.bracketed_other hc)
  rw [text_eq]
  refine findFirst?_entry (_ :: _ :: _ :: _ :: _ :: textEntries " " b.parameters) rfl b.clear_entries ?_ rfl
    ⟨_, bracketed_quotedList b.types_ne_nil b.plain_types _⟩
  simp only [forall_mem_cons]
  -- a parameter called types has a text behind its colon
  exact ⟨hpass rfl (by decide), hpass rfl (by decide), hpass rfl (by decide),
    passed_of_key rfl rfl (by decide) (by decide) (by decide), hpass rfl (by decide),
    forall_mem_textEntries fun _ _ _ _ => hpass rfl (by decide)⟩

/-- **Reading an object literal undoes writing it.** All fields are read back, and nothing else, whatever the keys of the
parameters are. -/
theorem ofText_text : Fields.ofText b.text = b.fields ∧ (Fields.ofText b.text).toValue = b.record := by
  have hfields : Fields.ofText b.text = b.fields := by
    rw [Fields.ofText, findFirst?_name, findFirst?_description, findFirst?_pattern, findFirst?_require,
      findFirst?_parameters, findFirst?_types]
    simp only [Option.map_some, quotedTexts_quotedList b.plain_require, quotedTexts_quotedList b.plain_types,
      parametersIn_keyedList b.plain_parameters b.nodup_keys]
    rfl
  refine ⟨hfields, ?_⟩
  rw [hfields]
  rfl

/-- Its parameters are called like the fields. -/
def forecastBlock : ObjectBlock where
  name := "forecast"
  description := "name, types"
  body := "^看 ['\x7b\x7d]$"
  flags := "gi"
  require := ["parameters", "当有人问天气时"]
  parameters := [("name", "城市"), ("types", "pattern"), ("require", "r, s"), ("parameters", "p"), ("description", "d"),
    ("pattern", "x")]
  types := ["text", "image"]
  plain_name := by unfold PlainText; decide
  plain_description := by unfold PlainText; decide
  body_ne_nil := by decide
  plain_body := by decide
  plain_flags := by decide
  require_ne_nil := by decide
  plain_require := by unfold PlainText; decide
  plain_parameters := by unfold PlainEntry PlainText; decide
  nodup_keys := by decide
  types_ne_nil := by decide
  plain_types := by unfold PlainText; decide

theorem forecastBlock_read : Fields.ofText forecastBlock.text = ⟨some "forecast", some "name, types",
    some ("^看 ['\x7b\x7d]$", "gi"), some ["parameters", "当有人问天气时"], some [("name", "城市"), ("types", "pattern"),
      ("require", "r, s"), ("parameters", "p"), ("description", "d"), ("pattern", "x")], some ["text", "image"]⟩ :=
  forecastBlock.ofText_text.1

end ObjectBlock

end PluginKit.Bridge
