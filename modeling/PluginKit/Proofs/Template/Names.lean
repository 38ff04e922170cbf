import PluginKit.Proofs.Script.PluginName
import PluginKit.Proofs.Text.Digits
import PluginKit.Proofs.Text.Replace
import PluginKit.Template.Fill

/-!
# Names in other cases

The name of a plugin also stands in its files as it is shown and as the beginning of names of classes. Both are made of
letters of the name, in lower case or title case, and blanks. So a set of characters that changes of case do not leave
holds their characters if it holds those of the name (`CaseClosed.all_displayName`, `CaseClosed.all_classPrefix`).
-/

namespace PluginKit.Template

open List

variable {p : CodePoint → Prop} {c : CodePoint} {s : Text}

/-- A set of ASCII characters that changes of case do not leave. -/
structure CaseClosed (q : CodePoint → Bool) : Prop where
  ascii {c : CodePoint} (h : q c = true) : c.toNat < 128
  lower {c : CodePoint} (h : q c = true) : (Text.lowerChar c).all q = true
  title {c : CodePoint} (h : q c = true) : (Text.titleChar c).all q = true

/-- What holds of all ASCII characters of a set is found by trying them. -/
theorem forall_ascii (h : ∀ n < 128, p (.ofNat n)) (hc : c.toNat < 128) : p c := by
  have hn := h c.toNat hc
  rw [CodePoint.ofNat_toNat] at hn
  exact hn

namespace CaseClosed

variable {q : CodePoint → Bool} (hq : CaseClosed q)
include hq

theorem all_lowerAt (h : q c = true) (before after : Text) : (Text.lowerAt before c after).all q = true := by
  have hn := hq.ascii h
  rw [Text.lowerAt, if_neg (by omega)]
  exact hq.lower h

theorem all_lowerFrom (h : s.all q = true) (before : Text) : (Text.lowerFrom before s).all q = true := by
  induction s generalizing before with
  | nil => rfl
  | cons c s ih =>
    rw [all_cons, Bool.and_eq_true] at h
    rw [Text.lowerFrom, all_append, hq.all_lowerAt h.1, ih h.2]
    rfl

theorem all_titleFrom (h : s.all q = true) (before : Text) : (Text.titleFrom before s).all q = true := by
  induction s generalizing before with
  | nil => rfl
  | cons c s ih =>
    rw [all_cons, Bool.and_eq_true] at h
    rw [Text.titleFrom, all_append, ih h.2, Bool.and_true]
    split
    · exact hq.all_lowerAt h.1 _ _
    · exact hq.title h.1

theorem all_capitalize (h : s.all q = true) : (Text.capitalize s).all q = true := by
  cases s with
  | nil => rfl
  | cons c s =>
    rw [all_cons, Bool.and_eq_true] at h
    rw [Text.capitalize, all_append, hq.title h.1, hq.all_lowerFrom h.2]
    rfl

end CaseClosed

theorem mem_of_mem_splitOn {sep : CodePoint} {part : Text} (hpart : part ∈ Text.splitOn sep s) (hc : c ∈ part) :
    c ∈ s := by
  induction s generalizing part with
  | nil =>
    rw [mem_singleton.mp hpart] at hc
    cases hc
  | cons d s ih =>
    rw [Text.splitOn] at hpart
    split at hpart
    · rcases mem_cons.mp hpart with rfl | hpart
      · cases hc
      · exact mem_cons_of_mem _ (ih hpart hc)
    · split at hpart
      · rw [mem_singleton.mp hpart, mem_singleton] at hc
        rw [hc]
        exact mem_cons_self
      · next first parts hsplit =>
        rw [hsplit] at ih
        rcases mem_cons.mp hpart with rfl | hpart
        · rcases mem_cons.mp hc with rfl | hc
          · exact mem_cons_self
          · exact mem_cons_of_mem _ (ih mem_cons_self hc)
        · exact mem_cons_of_mem _ (ih (mem_cons_of_mem _ hpart) hc)

namespace CaseClosed

variable {q : CodePoint → Bool} {f : Facts} (hq : CaseClosed q) (h : f.name.all q = true)
include hq h

theorem all_displayName (hblank : q ' ' = true) : f.displayName.all q = true := by
  refine hq.all_titleFrom ?_ []
  rw [all_eq_true] at h ⊢
  intro c hc
  rcases Text.mem_of_mem_replaceAll hc with hc | hc
  · rw [mem_singleton.mp hc]
    exact hblank
  · exact h c hc

theorem all_classPrefix : (Script.classPrefix f.name).all q = true := by
  rw [all_eq_true] at h ⊢
  intro c hc
  obtain ⟨part, hpart, hc⟩ := mem_flatMap.mp hc
  have hall : part.all q = true := by
    rw [all_eq_true]
    exact fun d hd => h d (mem_of_mem_splitOn hpart hd)
  exact all_eq_true.mp (hq.all_capitalize hall) c hc

end CaseClosed

/-! ### The characters of names -/

/-- A character of the name of a plugin, or of the words it is made of. -/
def isTitleChar (c : CodePoint) : Bool := Script.isNameChar c || c == .scalar ' '

/-- The same, or the line end that may follow a name. -/
def isLabelChar (c : CodePoint) : Bool := isTitleChar c || c == .scalar '\n'

theorem lt_of_isLabelChar (h : isLabelChar c = true) : c.toNat < 128 := by
  simp only [isLabelChar, isTitleChar, Script.isNameChar, Text.isAsciiLetter, Text.isAsciiDigit, Bool.or_eq_true,
    Bool.and_eq_true, decide_eq_true_eq, beq_iff_eq] at h
  rcases h with (((h | h) | rfl) | rfl) | rfl
  · rcases h with ⟨-, h⟩ | ⟨-, h⟩
    · exact Nat.lt_of_le_of_lt h (by decide)
    · exact Nat.lt_of_le_of_lt h (by decide)
  · exact Nat.lt_of_le_of_lt h.2 (by decide)
  · decide
  · decide
  · decide

theorem isLabelChar_of_isTitleChar (h : isTitleChar c = true) : isLabelChar c = true := by
  rw [isLabelChar, h, Bool.true_or]

theorem caseClosed_isTitleChar : CaseClosed isTitleChar where
  ascii h := lt_of_isLabelChar (isLabelChar_of_isTitleChar h)
  lower h := forall_ascii (p := fun c => isTitleChar c = true → (Text.lowerChar c).all isTitleChar = true)
    (by decide +kernel) (lt_of_isLabelChar (isLabelChar_of_isTitleChar h)) h
  title h := forall_ascii (p := fun c => isTitleChar c = true → (Text.titleChar c).all isTitleChar = true)
    (by decide +kernel) (lt_of_isLabelChar (isLabelChar_of_isTitleChar h)) h

theorem caseClosed_isLabelChar : CaseClosed isLabelChar where
  ascii := lt_of_isLabelChar
  lower h := forall_ascii (p := fun c => isLabelChar c = true → (Text.lowerChar c).all isLabelChar = true)
    (by decide +kernel) (lt_of_isLabelChar h) h
  title h := forall_ascii (p := fun c => isLabelChar c = true → (Text.titleChar c).all isLabelChar = true)
    (by decide +kernel) (lt_of_isLabelChar h) h

theorem all_isLabelChar {name : Text} (h : Script.isPluginName name = true) : name.all isLabelChar = true := by
  rw [all_eq_true]
  intro c hc
  rcases Script.isNameChar_of_isPluginName h hc with hc' | rfl
  · rw [isLabelChar, isTitleChar, hc', Bool.true_or, Bool.true_or]
  · decide

theorem all_year (n : Nat) : (Text.padNat 0 n).all isTitleChar = true := by
  rw [all_eq_true]
  intro c hc
  have hdigit : Text.isAsciiDigit c = true := by
    refine Text.isAsciiDigit_of_mem_toDigits (n := n) ?_
    simpa [Text.padNat] using hc
  rw [isTitleChar, Script.isNameChar, hdigit, Bool.or_true, Bool.true_or, Bool.true_or]

def placeholderWords : List Text :=
  ["PLUGIN_NAME", "PLUGIN_DISPLAY_NAME", "PLUGIN_DESCRIPTION", "PLUGIN_VERSION", "PLUGIN_AUTHOR", "PLUGIN_YEAR",
    "PLUGIN_CLASS_NAME", "ACTION_CLASS_NAME", "COMMAND_CLASS_NAME", "TOOL_CLASS_NAME", "HANDLER_CLASS_NAME",
    "START_HANDLER_CLASS_NAME"]

theorem words_replacements (f : Facts) : f.replacements.map Prod.fst = placeholderWords := rfl

/-- What holds of all words holds of the words of the replacements. -/
theorem forall_words {f : Facts} {p : Text → Prop} (h : ∀ word ∈ placeholderWords, p word) :
    ∀ r ∈ f.replacements, p r.1 := by
  intro r hr
  refine h r.1 ?_
  rw [← words_replacements f]
  exact mem_map.mpr ⟨r, hr, rfl⟩

/-- What holds of the characters of names and of the texts that were given holds of all that takes the place of
placeholders. -/
theorem forall_replacements {f : Facts} (hlabel : ∀ c, isLabelChar c = true → p c)
    (hname : Script.isPluginName f.name = true) (hdescription : ∀ c ∈ f.description, p c)
    (hversion : ∀ c ∈ f.version, p c) (hauthor : ∀ c ∈ f.author, p c) : ∀ r ∈ f.replacements, ∀ c ∈ r.2, p c := by
  have hall := all_isLabelChar hname
  have hlabels {s : Text} (hs : s.all isLabelChar = true) : ∀ c ∈ s, p c :=
    fun c hc => hlabel c (all_eq_true.mp hs c hc)
  have hclass (s : Text) (hs : s.all isLabelChar = true) : ∀ c ∈ Script.classPrefix f.name ++ s, p c :=
    forall_mem_append.mpr ⟨hlabels (caseClosed_isLabelChar.all_classPrefix hall), hlabels hs⟩
  have hyear : ∀ c ∈ Text.padNat 0 f.year, p c :=
    fun c hc => hlabel c (isLabelChar_of_isTitleChar (all_eq_true.mp (all_year f.year) c hc))
  simp only [Facts.replacements, forall_mem_cons (p := fun r : Text × Text => ∀ c ∈ r.2, p c), not_mem_nil,
    false_implies, implies_true, and_true]
  exact ⟨hlabels hall, hlabels (caseClosed_isLabelChar.all_displayName hall rfl), hdescription, hversion, hauthor, hyear,
    hclass _ rfl, hclass _ rfl, hclass _ rfl, hclass _ rfl, hclass _ rfl, hclass _ rfl⟩

end PluginKit.Template
