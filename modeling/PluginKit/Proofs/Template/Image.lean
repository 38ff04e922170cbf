import PluginKit.Proofs.Template.Created
import PluginKit.Proofs.Template.Slots

/-!
# Plugins as images of their templates

What a creation that completes leaves in a fresh directory is the image of the template, path by path: directories stay
directories, files that are no texts stay as they are, and every text but the manifest has its placeholders filled. If
the facts have no braces and the placeholders of a text do not stand inside each other, then filling is replacing all
placeholders at once (`create_image`).
-/

namespace PluginKit.Template

open Console Files List
open Facts (placeholder)

variable {w : Surroundings} {s s' : Session} {f : Facts} {r : Reading} {arguments : List Text} {text : Text}

/-! ### The table of placeholders -/

theorem Facts.displayName_ne_nil (h : Script.isPluginName f.name = true) : f.displayName ≠ [] := by
  have hblank : (Text.ofString " ") ≠ [] := by decide
  have hunderscore : Text.ofString "_" = [.scalar '_'] := by decide
  have hname : f.name ≠ [] := by
    intro hnil
    rw [hnil] at h
    cases h
  have hall := all_isLabelChar h
  unfold displayName Text.title
  rw [hunderscore]
  cases hwords : Text.replaceAll [.scalar '_'] " " f.name with
  | nil => exact absurd (Text.eq_nil_of_replaceAll_eq_nil hblank hwords) hname
  | cons c words =>
    have hc : isLabelChar c = true := by
      have hmem : c ∈ Text.replaceAll [.scalar '_'] " " f.name := hwords ▸ mem_cons_self
      rcases Text.mem_of_mem_replaceAll hmem with hmem | hmem
      · rw [mem_singleton.mp hmem]
        decide
      · exact all_eq_true.mp hall c hmem
    have htitle : Text.titleFrom [] (c :: words) = Text.titleChar c ++ Text.titleFrom [c] words := rfl
    rw [htitle, Text.titleChar, if_pos (lt_of_isLabelChar hc)]
    exact cons_ne_nil _ _

theorem braceless_iff {s : Text} : Braceless s ↔ ∀ c ∈ s, c ≠ .scalar '\x7b' ∧ c ≠ .scalar '\x7d' := by
  constructor
  · rintro ⟨hopen, hclose⟩ c hc
    exact ⟨fun heq => hopen (heq ▸ hc), fun heq => hclose (heq ▸ hc)⟩
  · exact fun h => ⟨fun hmem => (h _ hmem).1 rfl, fun hmem => (h _ hmem).2 rfl⟩

structure Facts.Braceless (f : Facts) : Prop where
  description : Template.Braceless f.description
  version : Template.Braceless f.version
  author : Template.Braceless f.author

/-- **The placeholders of a plugin** make a table. -/
theorem Facts.Braceless.isTable (h : f.Braceless) (hname : Script.isPluginName f.name = true)
    (hpresent : f.author ≠ [] ∧ f.description ≠ [] ∧ f.version ≠ []) : IsTable f.replacements where
  nodup := by
    rw [words_replacements]
    decide +kernel
  words := by
    have hwords : ∀ word ∈ placeholderWords, CodePoint.scalar '\x7b' ∉ word ∧ CodePoint.scalar '\x7d' ∉ word := by
      decide +kernel
    exact forall_words hwords
  values := by
    have hlabel (c : CodePoint) (hc : isLabelChar c = true) : c ≠ .scalar '\x7b' ∧ c ≠ .scalar '\x7d' :=
      forall_ascii (p := fun c => isLabelChar c = true → c ≠ .scalar '\x7b' ∧ c ≠ .scalar '\x7d') (by decide +kernel)
        (lt_of_isLabelChar hc) hc
    have hbraceless := forall_replacements hlabel hname (braceless_iff.mp h.description) (braceless_iff.mp h.version)
      (braceless_iff.mp h.author)
    have hclass (s : Text) (hs : s ≠ []) : Script.classPrefix f.name ++ s ≠ [] := append_ne_nil_of_right_ne_nil _ hs
    have hname' : f.name ≠ [] := by
      intro hnil
      rw [hnil] at hname
      cases hname
    have hyear : Text.padNat 0 f.year ≠ [] := by
      unfold Text.padNat
      simp
    have hpresent : ∀ r ∈ f.replacements, r.2 ≠ [] := by
      simp only [Facts.replacements, forall_mem_cons, not_mem_nil, false_implies, implies_true, and_true]
      exact ⟨hname', displayName_ne_nil hname, hpresent.2.1, hpresent.2.2, hpresent.1, hyear, hclass _ (by decide),
        hclass _ (by decide), hclass _ (by decide), hclass _ (by decide), hclass _ (by decide), hclass _ (by decide)⟩
    exact fun r hr => ⟨braceless_iff.mpr (hbraceless r hr), hpresent r hr⟩

/-- Filling a text is replacing its placeholders at once; their order does not matter, and none is left. -/
structure FilledAtOnce (f : Facts) (text : Text) : Prop where
  onePass : OnePass f.replacements text (f.fill text)
  unique : ∀ t, OnePass f.replacements text t → t = f.fill text
  order : ∀ rs, rs.Perm f.replacements → replaceEach rs text = f.fill text
  complete : ∀ r ∈ f.replacements, ¬ placeholder r.1 <:+: f.fill text

theorem IsTable.filledAtOnce (h : IsTable f.replacements) (htext : Flat text) : FilledAtOnce f text where
  onePass := onePass_replaceEach h htext
  unique _ ht := ht.unique h (onePass_replaceEach h htext)
  order _ hperm := replaceEach_perm h htext hperm
  complete r hr hinside := (replaceEach_complete h htext (h.words r hr) hinside).2 (mem_map.mpr ⟨r, hr, rfl⟩)

/-! ### The image -/

/-- A directory is the image of a template, path by path, and nothing else has changed. -/
structure IsImage (w : Surroundings) (p : Path) (f : Facts) (source target : List Text) (t t' : Tree) : Prop where
  located : t'.locate w.directory p = .ok target
  /-- The same paths are there, with a directory for a directory and a file for a file. -/
  paths : ∀ parts, (t'.find? (target ++ parts)).map Entry.isDirectory = (t.find? (source ++ parts)).map Entry.isDirectory
  /-- What is no text stays as it is. -/
  bytes : ∀ parts c e, t.find? (source ++ parts) = some (.file c) → c.read = .error e →
    t'.find? (target ++ parts) = some (.file c)
  /-- Every text but the manifest is filled. -/
  texts : ∀ parts c text, parts ≠ [Package.manifestName] → t.find? (source ++ parts) = some (.file c) →
    c.read = .ok text → t'.find? (target ++ parts) = some (.file (.text (f.fill text)))
  /-- Elsewhere, nothing but directories on the way to the plugin were made. -/
  frame : ∀ q, ¬ target <+: q → t'.find? q = t.find? q ∨ t.find? q = none ∧ t'.find? q = some .directory ∧
    ∃ parts, parts <+: p.parts ∧ t'.LeadsTo w.directory ⟨p.root, parts⟩ q

theorem isDirectory_fillEntry (f : Facts) (e : Entry) : (f.fillEntry e).isDirectory = e.isDirectory := by
  cases e
  all_goals rfl

theorem isDirectory_manifestEntry (f : Facts) (e : Entry) : (f.manifestEntry e).isDirectory = e.isDirectory := by
  cases e with
  | directory => rfl
  | file c =>
    unfold Facts.manifestEntry
    dsimp only
    split
    all_goals rfl

theorem Installed.isImage {p : Path} {source target : List Text} {t t' : Tree} (h : Installed w p f source target t t')
    (hsource : t.find? source = some .directory) : IsImage w p f source target t t' where
  located := h.located
  paths := by
    intro parts
    by_cases hparts : parts = []
    · rw [hparts, append_nil, append_nil, h.directory, hsource]
    · by_cases hmanifest : parts = [Package.manifestName]
      · rw [hmanifest, h.manifest, Option.map_map]
        exact congrArg (fun g => Option.map g _) (funext (isDirectory_manifestEntry f))
      · rw [h.image parts hparts hmanifest, Option.map_map]
        exact congrArg (fun g => Option.map g _) (funext (isDirectory_fillEntry f))
  bytes := by
    intro parts c e hfind hread
    have hparts : parts ≠ [] := by
      rintro rfl
      rw [append_nil, hsource] at hfind
      cases hfind
    by_cases hmanifest : parts = [Package.manifestName]
    · rw [hmanifest] at hfind ⊢
      rw [h.manifest, hfind, Option.map_some, Facts.manifestEntry]
      simp only [hread]
    · rw [h.image parts hparts hmanifest, hfind, Option.map_some, Facts.fillEntry, Facts.fillContent, hread]
  texts := by
    intro parts c text hmanifest hfind hread
    have hparts : parts ≠ [] := by
      rintro rfl
      rw [append_nil, hsource] at hfind
      cases hfind
    rw [h.image parts hparts hmanifest, hfind, Option.map_some, Facts.fillEntry, Facts.fillContent, hread]
  frame := h.frame

/-- A manifest that is no JSON, a text in a directory, and bytes that are no text. -/
def mixedFiles : List (List Text × Entry) :=
  [(["_manifest.json"], .file (.text "x")), (["b"], .file (.bytes [255])), (["d"], .directory),
    (["d", "t"], .file (.text "\x7b\x7bPLUGIN_NAME\x7d\x7d\r\n"))]

def mixedShelf : Tree :=
  ((Tree.empty.put ["templates"] .directory).put ["templates", "minimal"] .directory).putAll ["templates", "minimal"]
    mixedFiles

def mixedCopied : Tree := (mixedShelf.put ["p"] .directory).putAll ["p"] mixedFiles

theorem proper_mixedShelf : mixedShelf.Proper := by
  refine Tree.proper_of_entries (by decide) ?_
  decide

theorem below_mixedCopied : mixedCopied.below ["p"] = mixedFiles := rfl

theorem ready_mixedShelf : Ready (bareMachine false) .minimal ⟨"", ["p"]⟩ mixedShelf mixedCopied ["p"] where
  vacant := .inr ⟨["p"], by decide, rfl⟩
  copies := by
    intro s hs
    cases s
    cases hs
    rfl
  located := by decide
  reached := by
    rw [below_mixedCopied]
    simp only [mixedFiles, forall_mem_cons, not_mem_nil, false_implies, implies_true, and_true]
    exact ⟨⟨by decide, encodable_ofString "_manifest.json"⟩, ⟨by decide, encodable_ofString "b"⟩,
      ⟨by decide, encodable_ofString "d"⟩, by decide, encodable_ofString "t"⟩
  named := encodable_ofString "p"

theorem fits_mixedShelf : Fits (describedFacts "say hi") mixedCopied ["p"] := by
  have hname : Script.isPluginName (describedFacts "say hi").name = true := by decide
  have hfill (text : String) : Encodable ((describedFacts "say hi").fill (Text.foldNewlines text)) :=
    encodable_fill hname ⟨encodable_ofString _, encodable_ofString _, encodable_ofString _⟩
      (encodable_foldNewlines (encodable_ofString text))
  refine ⟨encodable_name hname, ?_, .text "x", "x", rfl, rfl, ?_⟩
  · rw [below_mixedCopied]
    simp only [mixedFiles, forall_mem_cons, not_mem_nil, false_implies, implies_true, and_true]
    refine ⟨?_, ?_, ?_, ?_⟩
    · intro c text hc hread
      cases hc
      cases hread
      exact hfill "x"
    · intro c text hc hread
      cases hc
      have herror : (Content.bytes [255]).read = .error (.decode ⟨255, 0, 1, .start⟩) := rfl
      rw [herror] at hread
      cases hread
    · intro c text hc
      cases hc
    · intro c text hc hread
      cases hc
      cases hread
      exact hfill "\x7b\x7bPLUGIN_NAME\x7d\x7d\r\n"
  · obtain ⟨e, he⟩ : ∃ e, Json.read (Text.foldNewlines ((describedFacts "say hi").fill "x")) = .error (.malformed e) :=
      exists_of_isMalformed (by decide)
    exact .inr ⟨e, he⟩

end PluginKit.Template
