import PluginKit.Proofs.Bridge.Lines

/-!
# Fields found by their colons

A field of an object literal counts only where a colon stands behind its key, so the search for it goes from colon
to colon. At a colon behind the key it comes to what the value reads (`findFirst?_keyed_of_some`); it goes on at one
that is not behind the key or where the value reads nothing (`findFirst?_keyed_of_none`), and a text without a colon
ends it.
-/

namespace PluginKit.Bridge

open Text List

variable {pad w u s v function : Text} {c opening closing : CodePoint} {r : Text × Text}

/-! ### Ends of a text -/

theorem allBlank_nil : AllBlank [] := nofun

theorem cut_blanks {x y pad' : Text} (hp : AllBlank pad) (hp' : AllBlank pad') (hx : Avoids isBlank x.reverse)
    (hy : Avoids isBlank y.reverse) (h : x ++ pad = y ++ pad') : x = y := by
  have hcut {z q : Text} (hq : AllBlank q) (hz : Avoids isBlank z.reverse) :
      (z ++ q).reverse.dropWhile isBlank = z.reverse := by
    rw [reverse_append]
    exact dropWhile_run (fun c hc => hq c (mem_reverse.mp hc)) hz
  rw [← reverse_inj, ← hcut hp hx, h, hcut hp' hy]

/-- The text ends with the key, but for blanks. -/
def EndsWithKey (key u : Text) : Prop := ∃ x pad, AllBlank pad ∧ u = x ++ (key ++ pad)

theorem endsWithKey_append (x key : Text) : EndsWithKey key (x ++ key) :=
  ⟨x, [], allBlank_nil, by rw [append_nil]⟩

theorem EndsWithKey.of_suffix {key : Text} (h : EndsWithKey key w) (hs : w <:+ u) : EndsWithKey key u := by
  obtain ⟨x, pad, hp, rfl⟩ := h
  obtain ⟨y, rfl⟩ := hs
  exact ⟨y ++ x, pad, hp, by rw [append_assoc]⟩

/-- A text that ends with a word does not end with a key of another last character. -/
theorem not_endsWithKey {key word x : Text} {d : CodePoint} (hword : word.getLast? = some c)
    (hkey : key.getLast? = some d) (hp : AllBlank pad) (hc : isBlank c = false) (hd : isBlank d = false)
    (hcd : c ≠ d) : ¬ EndsWithKey key (x ++ (word ++ pad)) := by
  obtain ⟨word, rfl⟩ := getLast?_eq_some_iff.mp hword
  obtain ⟨key, rfl⟩ := getLast?_eq_some_iff.mp hkey
  rintro ⟨y, pad', hp', h⟩
  have hlast : x ++ word ++ [c] = y ++ key ++ [d] := by
    refine cut_blanks hp hp' ?_ ?_ (by simpa using h)
    · rw [reverse_append]
      exact avoids_cons hc
    · rw [reverse_append]
      exact avoids_cons hd
  exact hcd (List.cons.inj (append_inj_right' hlast rfl)).1

/-! ### From colon to colon -/

theorem skipBlanks_space (hc : isBlank c = false) (s : Text) : skipBlanks (.scalar ' ' :: c :: s) = c :: s :=
  skipBlanks_append allBlank_space (avoids_cons hc)

section
variable {α : Type} {key : Text} {value : Scanner α}

theorem exists_of_keyed {r : α × Text} (h : keyed key value s = some r) :
    ∃ pad t, AllBlank pad ∧ s = key ++ (pad ++ .scalar ':' :: t) ∧ value (skipBlanks t) = some r := by
  simp only [keyed, Option.bind_eq_bind, Option.bind_eq_some_iff] at h
  obtain ⟨s₁, h₁, t, h₂, hr⟩ := h
  obtain ⟨pad, hp, rfl⟩ := eq_append_of_afterBlanks h₂
  exact ⟨pad, t, hp, eq_append_of_after h₁, hr⟩

theorem keyed_append (hp : AllBlank pad) (t : Text) :
    keyed key value (key ++ (pad ++ .scalar ':' :: t)) = value (skipBlanks t) := by
  have hcolon : afterBlanks ":" (pad ++ .scalar ':' :: t) = some t := afterBlanks_append hp (by decide) t
  simp only [keyed, after_append, Option.bind_eq_bind, Option.bind_some, hcolon]

variable (hkey : .scalar ':' ∉ key)
include hkey

/-- A key in front of the first colon has the value behind that colon. -/
theorem keyed_before_colon {r : α × Text} (hw : .scalar ':' ∉ w)
    (h : keyed key value (w ++ .scalar ':' :: v) = some r) :
    EndsWithKey key w ∧ value (skipBlanks v) = some r := by
  obtain ⟨pad, t, hp, hs, hr⟩ := exists_of_keyed h
  have hbefore : .scalar ':' ∉ key ++ pad := by
    rw [mem_append, not_or]
    exact ⟨hkey, Written.not_mem_of_allBlank hp (by decide)⟩
  rw [← append_assoc] at hs
  obtain ⟨rfl, rfl⟩ := cut_unique hw hbefore hs
  exact ⟨⟨[], pad, hp, rfl⟩, hr⟩

theorem findFirst?_keyed_of_none (hu : .scalar ':' ∉ u)
    (h : EndsWithKey key u → value (skipBlanks v) = none) :
    findFirst? (keyed key value) (u ++ .scalar ':' :: v) = findFirst? (keyed key value) v := by
  rw [← singleton_append, ← append_assoc]
  refine findFirst?_skip fun w hw hs => Option.eq_none_iff_forall_ne_some.mpr fun r hr => ?_
  rcases eq_nil_or_concat w with rfl | ⟨w, c, rfl⟩
  · exact hw rfl
  · obtain ⟨x, hx⟩ := hs
    rw [concat_eq_append, ← append_assoc] at hx
    obtain ⟨hxw, hc⟩ := append_inj' hx rfl
    cases hc
    have hcolon : .scalar ':' ∉ w := fun hm => hu (hxw ▸ mem_append_right x hm)
    rw [concat_eq_append, append_assoc, singleton_append] at hr
    obtain ⟨hend, hvalue⟩ := keyed_before_colon hkey hcolon hr
    rw [h (hend.of_suffix ⟨x, hxw⟩)] at hvalue
    cases hvalue

theorem findFirst?_keyed_of_some {a : α} (hu : .scalar ':' ∉ u) (hend : EndsWithKey key u)
    (hvalue : ∃ rest, value (skipBlanks v) = some (a, rest)) :
    findFirst? (keyed key value) (u ++ .scalar ':' :: v) = some a := by
  obtain ⟨x, pad, hp, rfl⟩ := hend
  obtain ⟨rest, hvalue⟩ := hvalue
  -- a key found earlier would stand before the same colon, so it would have the same value
  induction x with
  | nil =>
    have hread : keyed key value (key ++ (pad ++ .scalar ':' :: v)) = value (skipBlanks v) := keyed_append hp v
    rw [nil_append, append_assoc] at *
    rw [hvalue] at hread
    cases hs : key ++ (pad ++ .scalar ':' :: v) with
    | nil => simp at hs
    | cons d s =>
      rw [hs] at hread
      exact findFirst?_of_some hread
  | cons d x ih =>
    rw [cons_append] at hu ⊢
    rw [cons_append]
    cases hread : keyed key value (d :: (x ++ (key ++ pad) ++ .scalar ':' :: v)) with
    | none =>
      rw [findFirst?_of_none hread]
      exact ih fun hm => hu (mem_cons_of_mem d hm)
    | some r =>
      have hsame := (keyed_before_colon (w := d :: (x ++ (key ++ pad))) hkey hu hread).2
      rw [hvalue, Option.some.injEq] at hsame
      subst hsame
      exact findFirst?_of_some hread

omit hkey in
theorem findFirst?_keyed_of_not_mem (hs : .scalar ':' ∉ s) : findFirst? (keyed key value) s = none := by
  have hskip : findFirst? (keyed key value) (s ++ []) = findFirst? (keyed key value) [] := by
    refine findFirst?_skip fun w _ hw => Option.eq_none_iff_forall_ne_some.mpr fun r hr => ?_
    obtain ⟨pad, t, -, hwt, -⟩ := exists_of_keyed hr
    rw [append_nil] at hwt
    exact hs (hw.subset (by rw [hwt]; simp))
  rwa [append_nil] at hskip

end

/-! ### Fields one after another -/

/-- A field as it is written: what stands before its key, the key, and its value behind a colon and a space. -/
structure Entry where
  before : Text
  key : Text
  value : Text

namespace Entry

def text (e : Entry) : Text := e.before ++ (e.key ++ .scalar ':' :: .scalar ' ' :: e.value)

/-- The only colon of the field is the one behind its key, and no blank begins its value. -/
structure Clear (e : Entry) : Prop where
  before : .scalar ':' ∉ e.before
  key : .scalar ':' ∉ e.key
  value : .scalar ':' ∉ e.value
  first : ∃ c, e.value.head? = some c ∧ isBlank c = false

section
variable {α : Type} {key : Text} {value : Scanner α} {e : Entry} {es post : List Entry}

theorem Clear.skipBlanks (h : e.Clear) (t : Text) : skipBlanks (.scalar ' ' :: (e.value ++ t)) = e.value ++ t := by
  obtain ⟨c, hhead, hc⟩ := h.first
  obtain ⟨s, hs⟩ := head?_eq_some_iff.mp hhead
  rw [hs]
  exact skipBlanks_space hc (s ++ t)

/-- The field is not the one with the key, or the value does not read what it has. -/
def Passed (key : Text) (value : Scanner α) (e : Entry) : Prop :=
  (∀ u, ¬ EndsWithKey key (u ++ e.key)) ∨ ∀ t, value (e.value ++ t) = none

theorem passed_of_key {d : CodePoint} (he : e.key.getLast? = some c) (hkey : key.getLast? = some d)
    (hc : isBlank c = false) (hd : isBlank d = false) (hcd : c ≠ d) : e.Passed key value := by
  refine .inl fun u => ?_
  rw [← append_nil e.key]
  exact not_endsWithKey he hkey allBlank_nil hc hd hcd

theorem passed_of_first (he : e.value.head? = some c) (h : ∀ s, value (c :: s) = none) : e.Passed key value := by
  obtain ⟨s, hs⟩ := head?_eq_some_iff.mp he
  refine .inr fun t => ?_
  rw [hs]
  exact h (s ++ t)

/-- Fields that are passed over leave a text without colons. -/
theorem findFirst?_passed (hkey : .scalar ':' ∉ key) (hclear : ∀ e ∈ es, e.Clear) (hpass : ∀ e ∈ es, e.Passed key value)
    (hu : .scalar ':' ∉ u) (w : Text) : ∃ v, .scalar ':' ∉ v ∧
      findFirst? (keyed key value) (u ++ (es.flatMap text ++ w)) = findFirst? (keyed key value) (v ++ w) := by
  induction es generalizing u with
  | nil => exact ⟨u, hu, rfl⟩
  | cons e es ih =>
    obtain ⟨he, hclear⟩ := forall_mem_cons.mp hclear
    obtain ⟨hp, hpass⟩ := forall_mem_cons.mp hpass
    have hbefore : .scalar ':' ∉ u ++ (e.before ++ e.key) := by simp [hu, he.before, he.key]
    have hbehind : .scalar ':' ∉ .scalar ' ' :: e.value := by simp [he.value]
    obtain ⟨v, hv, hfind⟩ := ih hclear hpass hbehind
    refine ⟨v, hv, ?_⟩
    have htext : u ++ ((e :: es).flatMap text ++ w) = u ++ (e.before ++ e.key) ++ .scalar ':' ::
        (.scalar ' ' :: (e.value ++ (es.flatMap text ++ w))) := by
      simp [text]
    rw [htext, findFirst?_keyed_of_none hkey hbefore]
    · exact hfind
    · intro hend
      rw [he.skipBlanks]
      rcases hp with hp | hp
      · exact absurd (by rwa [append_assoc]) (hp (u ++ e.before))
      · exact hp _

/-- The first field that is not passed over is found. -/
theorem findFirst?_entry {a : α} (pre : List Entry) (hes : es = pre ++ e :: post) (hclear : ∀ e ∈ es, e.Clear)
    (hpass : ∀ e ∈ pre, e.Passed key value) (hkey : e.key = key)
    (hvalue : ∃ rest, value (e.value ++ (post.flatMap text ++ w)) = some (a, rest)) :
    findFirst? (keyed key value) (es.flatMap text ++ w) = some a := by
  subst hes hkey
  obtain ⟨hpre, hpost⟩ := forall_mem_append.mp hclear
  have he := hpost e mem_cons_self
  obtain ⟨v, hv, hfind⟩ := findFirst?_passed (u := []) he.key hpre hpass not_mem_nil (e.text ++ (post.flatMap text ++ w))
  have htext : v ++ (e.text ++ (post.flatMap text ++ w)) = v ++ e.before ++ e.key ++ .scalar ':' ::
      (.scalar ' ' :: (e.value ++ (post.flatMap text ++ w))) := by
    simp [text]
  rw [flatMap_append, flatMap_cons, append_assoc, append_assoc]
  refine hfind.trans ?_
  rw [htext]
  refine findFirst?_keyed_of_some he.key (by simp [hv, he.before, he.key]) (endsWithKey_append _ _) ?_
  rwa [he.skipBlanks]

theorem findFirst?_no_entry (hkey : .scalar ':' ∉ key) (hclear : ∀ e ∈ es, e.Clear)
    (hpass : ∀ e ∈ es, e.Passed key value) (hw : .scalar ':' ∉ w) :
    findFirst? (keyed key value) (es.flatMap text ++ w) = none := by
  obtain ⟨v, hv, hfind⟩ := findFirst?_passed (u := []) hkey hclear hpass not_mem_nil w
  refine hfind.trans (findFirst?_keyed_of_not_mem ?_)
  rw [mem_append, not_or]
  exact ⟨hv, hw⟩

end

end Entry

/-! ### Values -/

theorem quotedText_apostrophized (hne : s ≠ []) (hs : ∀ c ∈ s, isQuote c = false) (t : Text) :
    quotedText (apostrophized s ++ t) = some (s, t) := by
  have hread := quotedText_append (q := .scalar '\'') rfl hne hs t
  simpa [apostrophized] using hread

theorem quotedText_other (h : isQuote c = false) (s : Text) : quotedText (c :: s) = none := by
  have hchar : takeChar isQuote (c :: s) = none := if_neg (by simp [h])
  rw [quotedText, hchar]
  rfl

theorem eq_of_bracketed (h : bracketed opening closing s = some r) : s = opening :: (r.1 ++ closing :: r.2) := by
  simp only [bracketed, Option.bind_eq_bind, Option.bind_eq_some_iff] at h
  obtain ⟨⟨c, s₁⟩, hopen, ⟨inside, s₂⟩, hrun, ⟨d, s₃⟩, hclose, hr⟩ := h
  cases hr
  obtain ⟨rfl, hc⟩ := eq_cons_of_takeChar hopen
  obtain ⟨rfl, hd⟩ := eq_cons_of_takeChar hclose
  obtain rfl : s₁ = inside ++ d :: s₃ := eq_append_of_takeRun hrun
  rw [beq_iff_eq.mp hc, beq_iff_eq.mp hd]

theorem findFirst?_bracketed_of_not_mem {key : Text} (h : closing ∉ s) :
    findFirst? (keyed key (bracketed opening closing)) s = none := by
  rw [Option.eq_none_iff_forall_ne_some]
  intro inside hfind
  obtain ⟨u, v, hu, hread⟩ := exists_of_findFirst? hfind
  obtain ⟨pad, t, -, rfl, hvalue⟩ := exists_of_keyed hread
  have ht : closing ∈ t := by
    refine (dropWhile_suffix isBlank).subset ?_
    rw [← skipBlanks, eq_of_bracketed hvalue]
    simp
  exact h (hu.subset (by simp [ht]))

theorem exists_of_objectCall (h : objectCall function s = some r) :
    ∃ p q t, AllBlank p ∧ AllBlank q ∧ s = function ++ (p ++ .scalar '(' :: (q ++ .scalar '\x7b' :: t)) := by
  simp only [objectCall, openCall, Option.bind_eq_bind, Option.bind_eq_some_iff, Option.pure_def,
    Option.some.injEq] at h
  obtain ⟨s₁, ⟨s₂, hfunction, s₃, hbracket, rfl⟩, hr⟩ := h
  obtain ⟨p, hp, rfl⟩ := eq_append_of_afterBlanks hbracket
  refine ⟨p, s₃.takeWhile isBlank, r.1 ++ .scalar '\x7d' :: r.2, hp, fun c hc => mem_takeWhile_imp hc, ?_⟩
  rw [eq_append_of_after hfunction, ← eq_of_bracketed hr, skipBlanks, takeWhile_append_dropWhile]
  rfl

/-- A call with an object literal has its opening bracket before its first brace. -/
theorem endsWithKey_of_objectCall (hfunction : .scalar '\x7b' ∉ function)
    (hw : .scalar '\x7b' ∉ w) (h : objectCall function (w ++ .scalar '\x7b' :: v) = some r) : EndsWithKey "(" w := by
  obtain ⟨p, q, t, hp, hq, hs⟩ := exists_of_objectCall h
  have hbefore : .scalar '\x7b' ∉ function ++ p ++ .scalar '(' :: q := by
    simp [hfunction, Written.not_mem_of_allBlank hp (c := .scalar '\x7b') (by decide),
      Written.not_mem_of_allBlank hq (c := .scalar '\x7b') (by decide)]
  have hcut : w ++ .scalar '\x7b' :: v = function ++ p ++ .scalar '(' :: q ++ .scalar '\x7b' :: t := by
    rw [hs]
    simp
  obtain ⟨rfl, -⟩ := cut_unique hw hbefore hcut
  exact ⟨function ++ p, q, hq, rfl⟩

/-- A regular expression without slashes, with the options behind it. -/
theorem slashed_run {body : Text} (hne : body ≠ []) (hbody : .scalar '/' ∉ body) (post : Text) :
    slashed (.scalar '/' :: (body ++ .scalar '/' :: post))
      = some ((body, post.takeWhile isFlag), post.dropWhile isFlag) := by
  have hopen (s : Text) : takeChar (fun c => c == '/') (.scalar '/' :: s) = some (.scalar '/', s) :=
    takeChar_cons rfl s
  have hrun : takeRun (fun c => c != '/') (body ++ .scalar '/' :: post) = some (body, .scalar '/' :: post) := by
    refine takeRun_append (fun c hc => ?_) hne (avoids_cons rfl)
    rw [bne_iff_ne]
    rintro rfl
    exact hbody hc
  simp only [slashed, hopen, hrun, Option.bind_eq_bind, Option.bind_some]
  rfl

theorem slashed_other (h : c ≠ '/') (s : Text) : slashed (c :: s) = none := by
  have hchar : takeChar (fun d => d == '/') (c :: s) = none := if_neg (by simpa using h)
  simp only [slashed, hchar]
  rfl

end PluginKit.Bridge
