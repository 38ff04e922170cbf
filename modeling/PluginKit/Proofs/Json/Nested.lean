import PluginKit.Proofs.Json.Number

/-!
# Reading values inside each other

`ReadsTo limits level s r` says what reading the text `s` of one value comes to inside `level` collections,
whatever follows it: a value, or the kind of the first collection that stands inside too many others. The
scalars always give a value. A list or an object comes to what its parts come to, read one after another
(`readsTo_list`, `readsTo_object`), whatever blanks stand between the parts (`Spacing`).
-/

namespace PluginKit.Json

open List

variable {α : Type} {esc : CodePoint → Text} {s b colon : Text} {c : CodePoint} {r : Except String Value}
  {texts : List Text} {rs : List (Except String Value)}

/-- The reading that ends at a place with a result, or refuses a collection. -/
def settle {α : Type} (r : Except String α) (p : Place) : Reading (α × Place) :=
  match r with
  | .ok v => .ok (v, p)
  | .error collection => tooDeep collection

/-- The text of one value, and what reading it comes to. -/
structure ReadsTo (limits : Limits) (level : Nat) (s : Text) (r : Except String Value) : Prop where
  opens : ∃ c cs, s = c :: cs ∧ isJsonBlank c = false ∧ c ≠ ']'
  /-- Two steps per character are enough. -/
  reads : ∀ (off : Nat) (t : Text) (fuel : Nat), Stops t → 2 * s.length ≤ fuel →
    readValue limits level fuel ⟨off, s ++ t⟩ = settle r ⟨off + s.length, t⟩

def collect {α : Type} : List (Except String α) → Except String (List α)
  | [] => .ok []
  | .error collection :: _ => .error collection
  | .ok x :: rest =>
    match collect rest with
    | .ok xs => .ok (x :: xs)
    | .error collection => .error collection

theorem collect_isOk (rs : List (Except String α)) : (collect rs).isOk = true ↔ ∀ r ∈ rs, r.isOk = true := by
  induction rs with
  | nil => simp [collect, Except.isOk, Except.toBool]
  | cons r rs ih =>
    cases r with
    | error c => simp [collect, Except.isOk, Except.toBool]
    | ok x =>
      cases hc : collect rs with
      | error c =>
        rw [hc] at ih
        simpa [collect, hc, Except.isOk, Except.toBool] using ih
      | ok xs =>
        rw [hc] at ih
        simpa [collect, hc, Except.isOk, Except.toBool] using ih

section
variable {limits : Limits} {level : Nat}

/-! ### Texts -/

/-- A text between quotes, each code point of it written by `esc`. -/
def quotedBy (esc : CodePoint → Text) (s : Text) : Text :=
  .scalar '"' :: (s.flatMap esc ++ [.scalar '"'])

theorem Escaping.ne_nil (he : Escaping esc) (c : CodePoint) : esc c ≠ [] := by
  intro hc
  cases hs : c.isSurrogate with
  | true =>
    rw [he.half c hs] at hc
    cases hc
  | false =>
    have h := he.reads c hs 0 1 0 [.scalar '"'] (cons_ne_nil _ _)
    rw [hc] at h
    cases h

structure QuotedReads (q s : Text) : Prop where
  opens : ∃ body, q = .scalar '"' :: body
  reads : ∀ (off : Nat) (t : Text),
    readText off (q ++ t).length ((⟨off, q ++ t⟩ : Place).advance 1) = .ok (s, ⟨off + q.length, t⟩)

theorem quotedReads_quotedBy {s' : Text} (hne : ∀ c, esc c ≠ []) (h : ∀ (start fuel off : Nat) (t : Text),
    s.length < fuel → readText start fuel ⟨off, s.flatMap esc ++ .scalar '"' :: t⟩
      = .ok (s', ⟨off + (s.flatMap esc).length + 1, t⟩)) : QuotedReads (quotedBy esc s) s' where
  opens := ⟨_, rfl⟩
  reads := by
    intro off t
    have happ : quotedBy esc s ++ t = .scalar '"' :: (s.flatMap esc ++ .scalar '"' :: t) := by
      simp [quotedBy]
    have hadv : (⟨off, quotedBy esc s ++ t⟩ : Place).advance 1
        = ⟨off + 1, s.flatMap esc ++ .scalar '"' :: t⟩ := by rw [happ]; rfl
    have hle : s.length ≤ (s.flatMap esc).length := by
      clear h happ hadv
      induction s with
      | nil => exact Nat.le_refl _
      | cons c s ih =>
        have hc := length_pos_iff.mpr (hne c)
        rw [flatMap_cons, length_append, length_cons]
        omega
    have hlen : (quotedBy esc s).length = (s.flatMap esc).length + 2 := by simp [quotedBy]
    rw [hadv, h off _ (off + 1) t (by rw [length_append]; omega), hlen]
    congr 3
    omega

theorem Escaping.quotedReads (he : Escaping esc) (s : Text) : QuotedReads (quotedBy esc s) (joinHalves s) :=
  quotedReads_quotedBy he.ne_nil (he.readText_flatMap s)

theorem readsTo_text {q : Text} (h : QuotedReads q s) : ReadsTo limits level q (.ok (.str s)) := by
  obtain ⟨⟨body, rfl⟩, hreads⟩ := h
  refine ⟨⟨_, _, rfl, rfl, by decide⟩, fun off t fuel _ hf => ?_⟩
  obtain ⟨fuel, rfl⟩ : ∃ k, fuel = k + 1 := ⟨fuel - 1, by simp only [length_cons] at hf; omega⟩
  show (do
    let r ← readText off (CodePoint.scalar '"' :: body ++ t).length
      (Place.advance ⟨off, CodePoint.scalar '"' :: body ++ t⟩ 1)
    return (Value.str r.1, r.2)) = _
  rw [hreads off t]
  rfl

/-! ### Words and numbers -/

theorem readValue_other {cs : Text} (hq : c ≠ '"') (hl : c ≠ '[') (ho : c ≠ '\x7b')
    (fuel off : Nat) :
    readValue limits level (fuel + 1) ⟨off, c :: cs⟩ =
      match word? (c :: cs) with
      | some w => .ok (w.2, (⟨off, c :: cs⟩ : Place).advance w.1.length)
      | none => readNumber limits ⟨off, c :: cs⟩ := by
  rw [readValue]
  split
  · next h => cases h; exact absurd rfl hq
  · next h => cases h; exact absurd rfl hl
  · next h => cases h; exact absurd rfl ho
  · rfl

theorem readsTo_word {w : Text} {v : Value} (hw : (w, v) ∈ words) : ReadsTo limits level w (.ok v) := by
  have hcase : (∀ t, word? (w ++ t) = some (w, v)) ∧ ∃ c cs, w = c :: cs ∧ isJsonBlank c = false ∧ c ≠ ']' ∧
      c ≠ '"' ∧ c ≠ '[' ∧ c ≠ '\x7b' := by
    simp only [words, mem_cons, Prod.mk.injEq, not_mem_nil, or_false] at hw
    rcases hw with ⟨rfl, rfl⟩ | ⟨rfl, rfl⟩ | ⟨rfl, rfl⟩ | ⟨rfl, rfl⟩ | ⟨rfl, rfl⟩ | ⟨rfl, rfl⟩
    all_goals
      exact ⟨fun t => rfl, _, _, rfl, by decide, by decide, by decide, by decide, by decide⟩
  obtain ⟨hword, c, cs, rfl, hb, hc, hq, hl, ho⟩ := hcase
  refine ⟨⟨c, cs, rfl, hb, hc⟩, fun off t fuel _ hf => ?_⟩
  obtain ⟨fuel, rfl⟩ : ∃ k, fuel = k + 1 := ⟨fuel - 1, by simp only [length_cons] at hf; omega⟩
  rw [cons_append, readValue_other hq hl ho, ← cons_append, hword t]
  exact congrArg (fun p => Except.ok (v, p)) (Place.advance_append off (c :: cs) t)

theorem word?_digit (hc : Text.isAsciiDigit c = true) (cs : Text) : word? (c :: cs) = none := by
  have hne : ∀ d : CodePoint, Text.isAsciiDigit d = false → d ≠ c := by
    rintro d hd rfl
    rw [hc] at hd
    cases hd
  simp (disch := decide) [word?, words, Text.ofString, hne]

theorem word?_dash (hc : Text.isAsciiDigit c = true) (cs : Text) : word? (.scalar '-' :: c :: cs) = none := by
  have hI : CodePoint.scalar 'I' ≠ c := by
    rintro rfl
    exact absurd hc (by decide)
  simp [word?, words, Text.ofString, hI]

theorem readsTo_number {n : Numeral} (h : n.WellFormed)
    (hl : n.isWhole = true → n.whole.length ≤ limits.digits) :
    ReadsTo limits level n.text (.ok n.value) := by
  obtain ⟨d, w, hw, hd⟩ := h.whole_cons
  have hcase : ∃ c cs, n.text = c :: cs ∧ (∀ t, word? (n.text ++ t) = none) ∧
      (c = .scalar '-' ∨ Text.isAsciiDigit c = true) := by
    cases hn : n.negative with
    | true =>
      have ht : n.text = .scalar '-' :: d :: (w ++ (Numeral.fractionText n.fraction ++
          Numeral.exponentText n.exponent)) := by rw [Numeral.text, hn, hw]; rfl
      exact ⟨_, _, ht, fun t => by rw [ht]; exact word?_dash hd _, .inl rfl⟩
    | false =>
      have ht : n.text = d :: (w ++ (Numeral.fractionText n.fraction ++
          Numeral.exponentText n.exponent)) := by rw [Numeral.text, hn, hw]; rfl
      exact ⟨_, _, ht, fun t => by rw [ht]; exact word?_digit hd _, .inr hd⟩
  obtain ⟨c, cs, ht, hword, hc⟩ := hcase
  have hne : ∀ x : CodePoint, x ≠ .scalar '-' → Text.isAsciiDigit x = false → c ≠ x := by
    rintro x hx hxd rfl
    rcases hc with rfl | hc
    · exact hx rfl
    · rw [hc] at hxd
      cases hxd
  have hblank : isJsonBlank c = false := by
    simp only [isJsonBlank, Bool.or_eq_false_iff, beq_eq_false_iff_ne]
    exact ⟨⟨⟨hne _ (by decide) (by decide), hne _ (by decide) (by decide)⟩,
      hne _ (by decide) (by decide)⟩, hne _ (by decide) (by decide)⟩
  refine ⟨⟨c, cs, ht, hblank, hne _ (by decide) (by decide)⟩, fun off t fuel hs hf => ?_⟩
  obtain ⟨fuel, rfl⟩ : ∃ k, fuel = k + 1 := ⟨fuel - 1, by rw [ht, length_cons] at hf; omega⟩
  have hword := hword t
  have hread := Numeral.readNumber_text h hl hs off
  rw [ht] at hword hread ⊢
  rw [cons_append] at hword hread ⊢
  rw [readValue_other (hne _ (by decide) (by decide)) (hne _ (by decide) (by decide))
    (hne _ (by decide) (by decide)), hword]
  exact hread

/-! ### Blanks -/

/-- The text consists of blanks that JSON allows between its parts. -/
def IsBlanks (s : Text) : Prop := ∀ c ∈ s, isJsonBlank c = true

theorem isBlanks_nil : IsBlanks [] := nofun

theorem isBlanks_space : IsBlanks " " := forall_mem_singleton.mpr rfl

theorem stops_blanks {t : Text} (hb : IsBlanks b) (ht : Stops t) : Stops (b ++ t) := by
  cases b with
  | nil => exact ht
  | cons c b =>
    have hc := hb c mem_cons_self
    simp only [isJsonBlank, Bool.or_eq_true, beq_iff_eq] at hc
    refine stops_cons ?_
    rcases hc with ((rfl | rfl) | rfl) | rfl
    all_goals decide

theorem skipBlanks_append (hb : IsBlanks b) (h : ∃ c cs, s = c :: cs ∧ isJsonBlank c = false)
    (off : Nat) : (⟨off, b ++ s⟩ : Place).skipBlanks = ⟨off + b.length, s⟩ := by
  obtain ⟨c, cs, rfl, hc⟩ := h
  have hrun : (b ++ c :: cs).takeWhile isJsonBlank = b := Text.takeWhile_run hb (Text.avoids_cons hc)
  rw [Place.skipBlanks]
  simp only [hrun]
  exact Place.advance_append off b (c :: cs)

/-- If there is anything in a text, it begins with such a character. -/
def Opens (p : CodePoint → Prop) (s : Text) : Prop := ∀ c, s.head? = some c → p c

theorem opens_nil (p : CodePoint → Prop) : Opens p [] := by
  intro c hc
  cases hc

theorem opens_of {p : CodePoint → Prop} (h : ∃ c cs, s = c :: cs ∧ p c) : Opens p s := by
  obtain ⟨c, cs, rfl, hc⟩ := h
  intro d hd
  cases hd
  exact hc

theorem Opens.mono {p q : CodePoint → Prop} (h : Opens p s) (hpq : ∀ c, p c → q c) : Opens q s :=
  fun c hc => hpq c (h c hc)

/-- Blanks are skipped up to a text that begins with none, and also if nothing follows them. -/
theorem skipBlanks_opens (hb : IsBlanks b) (h : Opens (isJsonBlank · = false) s) (off : Nat) :
    (⟨off, b ++ s⟩ : Place).skipBlanks = ⟨off + b.length, s⟩ := by
  cases s with
  | cons c cs => exact skipBlanks_append hb ⟨c, cs, rfl, h c rfl⟩ off
  | nil =>
    have hrun : (b ++ []).takeWhile isJsonBlank = b := by
      rw [append_nil]
      exact takeWhile_eq_self_iff.mpr hb
    rw [Place.skipBlanks]
    simp only [hrun]
    exact Place.advance_append off b []

/-- The blanks between the parts of a collection. -/
structure Spacing where
  opening : Text
  gap : Text
  closing : Text
  colon : Text
  opening_blank : IsBlanks opening
  gap_blank : IsBlanks gap
  closing_blank : IsBlanks closing
  colon_blank : IsBlanks colon

namespace Spacing

def tight : Spacing := ⟨[], [], [], [], isBlanks_nil, isBlanks_nil, isBlanks_nil, isBlanks_nil⟩

/-- The text of the parts of a collection, from behind its opening bracket on. -/
def body (sp : Spacing) (texts : List Text) (bracket : CodePoint) : Text :=
  sp.opening ++ (Text.join (.scalar ',' :: sp.gap) texts ++ (sp.closing ++ [bracket]))

def list (sp : Spacing) (texts : List Text) : Text := .scalar '[' :: sp.body texts ']'

def object (sp : Spacing) (texts : List Text) : Text := .scalar '\x7b' :: sp.body texts '\x7d'

theorem tight_list (texts : List Text) : tight.list texts = "[" ++ Text.join "," texts ++ "]" := by
  simp [list, body, tight, Text.ofString]

theorem tight_object (texts : List Text) : tight.object texts = "\x7b" ++ Text.join "," texts ++ "\x7d" := by
  simp [object, body, tight, Text.ofString]

end Spacing

/-! ### Parts one after another -/

theorem stops_comma (t : Text) : Stops (.scalar ',' :: t) := stops_cons (by decide)

theorem join_cons_cons (sep s s' : Text) (rest : List Text) :
    Text.join sep (s :: s' :: rest) = s ++ sep ++ Text.join sep (s' :: rest) := rfl

theorem join_opens {p : CodePoint → Prop} (h : ∃ c cs, s = c :: cs ∧ p c) (sep : Text)
    (texts : List Text) (t : Text) : ∃ c cs, Text.join sep (s :: texts) ++ t = c :: cs ∧ p c := by
  obtain ⟨c, cs, rfl, hc⟩ := h
  cases texts with
  | nil => exact ⟨c, cs ++ t, rfl, hc⟩
  | cons s' texts =>
    rw [join_cons_cons]
    exact ⟨c, _, rfl, hc⟩

theorem skipBlanks_of_opens (h : ∃ c cs, s = c :: cs ∧ isJsonBlank c = false) (off : Nat) :
    (⟨off, s⟩ : Place).skipBlanks = ⟨off, s⟩ :=
  skipBlanks_append isBlanks_nil h off

theorem ReadsTo.opens_blankless (h : ReadsTo limits level s r) : ∃ c cs, s = c :: cs ∧ isJsonBlank c = false := by
  obtain ⟨c, cs, hs, hb, -⟩ := h.opens
  exact ⟨c, cs, hs, hb⟩

theorem settle_cons (x : α) (r : Except String (List α)) (p : Place) :
    (settle r p).map (fun y => (x :: y.1, y.2)) = settle (r.map (x :: ·)) p := by
  cases r <;> rfl

theorem collect_ok_cons (x : α) (rs : List (Except String α)) : collect (.ok x :: rs) = (collect rs).map (x :: ·) := by
  rw [collect]
  cases collect rs <;> rfl

/-- What is read behind a part of a collection: its closing bracket, or a comma and the other parts. -/
def readMore {α : Type} (reader : Nat → Place → Reading (List α × Place)) (bracket : CodePoint) (fuel : Nat) (x : α)
    (p : Place) : Reading (List α × Place) :=
  if p.rest.head? = some bracket then .ok ([x], p.advance 1)
  else if p.rest.head? = some (.scalar ',') then
    (reader fuel (p.advance 1).skipBlanks).map fun y => (x :: y.1, y.2)
  else p.fail .comma

/-- The first character of a part, which neither is skipped nor closes the collection. -/
def BeginsPart (bracket c : CodePoint) : Prop := isJsonBlank c = false ∧ c ≠ bracket

/-- The reader takes such parts of a collection one by one. -/
structure ReadsParts {α : Type} (reader : Nat → Place → Reading (List α × Place)) (bracket : CodePoint)
    (reads : Text → Except String α → Prop) : Prop where
  bracket_eq : bracket = ']' ∨ bracket = '\x7d'
  opens : ∀ {s r}, reads s r → ∃ c cs, s = c :: cs ∧ BeginsPart bracket c
  part : ∀ {s r t} (off : Nat) {fuel : Nat}, reads s r → Stops t → 2 * s.length ≤ fuel →
    reader (fuel + 1) ⟨off, s ++ t⟩ = (settle r ⟨off + s.length, t⟩).bind
      fun x => readMore reader bracket fuel x.1 x.2.skipBlanks

namespace ReadsParts

variable {reader : Nat → Place → Reading (List α × Place)} {bracket : CodePoint}
  {reads : Text → Except String α → Prop} {r : Except String α} {rs : List (Except String α)}

theorem ne_comma (h : ReadsParts reader bracket reads) : bracket ≠ ',' := by
  rcases h.bracket_eq with rfl | rfl <;> decide

theorem bracket_begins (h : ReadsParts reader bracket reads) (t : Text) :
    Stops (bracket :: t) ∧ ∃ c cs, bracket :: t = c :: cs ∧ isJsonBlank c = false := by
  rcases h.bracket_eq with rfl | rfl
  all_goals exact ⟨stops_cons (by decide), _, _, rfl, by decide⟩

theorem opens_blankless (h : ReadsParts reader bracket reads) (hs : reads s r) :
    ∃ c cs, s = c :: cs ∧ isJsonBlank c = false := by
  obtain ⟨c, cs, hs, hc⟩ := h.opens hs
  exact ⟨c, cs, hs, hc.1⟩

theorem readMore_comma (h : ReadsParts reader bracket reads) (fuel : Nat) (x : α) (off : Nat) (t : Text) :
    readMore reader bracket fuel x ⟨off, .scalar ',' :: t⟩
      = (reader fuel (Place.skipBlanks ⟨off + 1, t⟩)).map fun y => (x :: y.1, y.2) := by
  have hne : some (CodePoint.scalar ',') ≠ some bracket := fun hc => h.ne_comma (Option.some.inj hc).symm
  exact (if_neg hne).trans (if_pos rfl)

/-- Parts between commas are read up to the closing bracket. -/
theorem join (hp : ReadsParts reader bracket reads) (sp : Spacing) (h : List.Forall₂ reads texts rs) : texts ≠ [] →
    ∀ (off : Nat) (t : Text) (fuel : Nat), 2 * (Text.join (.scalar ',' :: sp.gap) texts).length + 2 ≤ fuel →
    reader fuel ⟨off, Text.join (.scalar ',' :: sp.gap) texts ++ (sp.closing ++ bracket :: t)⟩
      = settle (collect rs)
          ⟨off + (Text.join (.scalar ',' :: sp.gap) texts).length + sp.closing.length + 1, t⟩ := by
  induction h with
  | nil => exact fun hne => absurd rfl hne
  | @cons s r texts rs hs hrest ih =>
    intro _ off t fuel hf
    obtain ⟨fuel, rfl⟩ : ∃ k, fuel = k + 1 := ⟨fuel - 1, by omega⟩
    obtain ⟨hstops, hbracket⟩ := hp.bracket_begins t
    cases hrest with
    | nil =>
      rw [Text.join] at hf ⊢
      rw [hp.part off hs (stops_blanks sp.closing_blank hstops) (by omega)]
      cases r with
      | error c => rfl
      | ok v =>
        simp only [settle, Except.bind, skipBlanks_append sp.closing_blank hbracket]
        exact if_pos rfl
    | @cons s' r' texts rs hs' hrest =>
      generalize hsep : (.scalar ',' :: sp.gap : Text) = sep at ih hf ⊢
      let after : Text := Text.join sep (s' :: texts) ++ (sp.closing ++ bracket :: t)
      have happ : Text.join sep (s :: s' :: texts) ++ (sp.closing ++ bracket :: t)
          = s ++ .scalar ',' :: (sp.gap ++ after) := by
        simp [join_cons_cons, ← hsep, after]
      have hlen : (Text.join sep (s :: s' :: texts)).length
          = s.length + 1 + sp.gap.length + (Text.join sep (s' :: texts)).length := by
        simp only [join_cons_cons, length_append, ← hsep, length_cons]
        omega
      rw [hlen] at hf ⊢
      rw [happ, hp.part off hs (stops_comma _) (by omega)]
      cases r with
      | error c => rfl
      | ok v =>
        have hcomma := skipBlanks_of_opens (s := .scalar ',' :: (sp.gap ++ after)) ⟨_, _, rfl, rfl⟩ (off + s.length)
        have hskip : (⟨off + s.length + 1, sp.gap ++ after⟩ : Place).skipBlanks
            = ⟨off + s.length + 1 + sp.gap.length, after⟩ :=
          skipBlanks_append sp.gap_blank (join_opens (hp.opens_blankless hs') _ _ _) _
        have hpos : 0 < s.length := by
          obtain ⟨c, cs, rfl, -⟩ := hp.opens hs
          exact Nat.succ_pos _
        have hnext := ih (cons_ne_nil _ _) (off + s.length + 1 + sp.gap.length) t fuel (by omega)
        have hoff (n : Nat) : off + s.length + 1 + sp.gap.length + n
            = off + (s.length + 1 + sp.gap.length + n) := by omega
        simp only [settle, Except.bind, hcomma]
        rw [hp.readMore_comma, hskip, hnext, settle_cons, ← collect_ok_cons, hoff]
        rfl

end ReadsParts

/-- A value that begins with such a bracket is a collection, and its parts are what the reader finds. -/
def Collects {α : Type} (limits : Limits) (level : Nat) (opening bracket : CodePoint) (name : String)
    (reader : Nat → Place → Reading (List α × Place)) (f : List α → Value) : Prop :=
  ∀ {b s : Text}, IsBlanks b → Opens (isJsonBlank · = false) s → ∀ fuel off : Nat,
    readValue limits level (fuel + 1) ⟨off, opening :: (b ++ s)⟩ =
      if limits.depth ≤ level then tooDeep name
      else if s.head? = some bracket then .ok (f [], ⟨off + 1 + b.length + 1, s.tail⟩)
      else (reader fuel ⟨off + 1 + b.length, s⟩).map fun x => (f x.1, x.2)

theorem Spacing.length_body (sp : Spacing) (texts : List Text) (bracket : CodePoint) :
    (sp.body texts bracket).length
      = sp.opening.length + (Text.join (.scalar ',' :: sp.gap) texts).length + sp.closing.length + 1 := by
  simp only [body, length_append, length_cons, length_nil]
  omega

theorem Spacing.body_append (sp : Spacing) (texts : List Text) (bracket : CodePoint) (t : Text) :
    sp.body texts bracket ++ t
      = sp.opening ++ (Text.join (.scalar ',' :: sp.gap) texts ++ (sp.closing ++ bracket :: t)) := by
  simp [body]

theorem Spacing.empty_blank (sp : Spacing) : IsBlanks (sp.opening ++ sp.closing) := by
  intro c hc
  rcases mem_append.mp hc with hc | hc
  · exact sp.opening_blank c hc
  · exact sp.closing_blank c hc

theorem Spacing.body_nil (sp : Spacing) (bracket : CodePoint) (t : Text) :
    sp.body [] bracket ++ t = (sp.opening ++ sp.closing) ++ bracket :: t := by
  simp [body, Text.join, Text.ofString]

/-- A collection reads as its parts do, one level further in. -/
theorem Collects.reads {opening bracket : CodePoint} {name : String}
    {reader : Nat → Place → Reading (List α × Place)} {f : List α → Value} {reads : Text → Except String α → Prop}
    {rs : List (Except String α)} (hc : Collects limits level opening bracket name reader f)
    (hp : ReadsParts reader bracket reads) (hopening : BeginsPart ']' opening) (sp : Spacing)
    (h : List.Forall₂ reads texts rs) :
    ReadsTo limits level (opening :: sp.body texts bracket)
      (if limits.depth ≤ level then .error name else (collect rs).map f) := by
  refine ⟨⟨_, _, rfl, hopening⟩, fun off t fuel _ hf => ?_⟩
  rw [length_cons, sp.length_body] at hf ⊢
  obtain ⟨fuel, rfl⟩ : ∃ k, fuel = k + 1 := ⟨fuel - 1, by omega⟩
  have hbracket := (hp.bracket_begins t).2
  rw [cons_append]
  cases h with
  | nil =>
    have hoff : off + 1 + (sp.opening ++ sp.closing).length + 1
        = off + (sp.opening.length + 0 + sp.closing.length + 1 + 1) := by
      rw [length_append]
      omega
    rw [sp.body_nil, hc sp.empty_blank (opens_of hbracket), head?_cons, if_pos rfl, hoff]
    split <;> rfl
  | @cons s r texts rs hs hrest =>
    have hopens := join_opens (hp.opens hs) (.scalar ',' :: sp.gap) texts (sp.closing ++ bracket :: t)
    have hinside : (Text.join (.scalar ',' :: sp.gap) (s :: texts) ++ (sp.closing ++ bracket :: t)).head? ≠ some bracket :=
      fun h => (opens_of hopens _ h).2 rfl
    have hoff (a n b : Nat) : off + 1 + a + n + b + 1 = off + (a + n + b + 1 + 1) := by omega
    rw [sp.body_append, hc sp.opening_blank ((opens_of hopens).mono fun _ hc => hc.1), if_neg hinside,
      hp.join sp (.cons hs hrest) (cons_ne_nil _ _) _ t fuel (by omega), hoff]
    split
    · rfl
    · cases collect (r :: rs) <;> rfl

/-! ### Lists -/

theorem head?_ne_some (h : ∀ t, s = c :: t → False) : s.head? ≠ some c := by
  intro hs
  obtain ⟨t, ht⟩ := head?_eq_some_iff.mp hs
  exact h t ht

theorem readsParts_items : ReadsParts (readItems limits level) ']' (ReadsTo limits level) where
  bracket_eq := .inl rfl
  opens := ReadsTo.opens
  part := by
    intro s r t off fuel hs ht hf
    rw [readItems, hs.reads off t fuel ht hf]
    cases r with
    | error c => rfl
    | ok v =>
      simp only [settle, bind, Except.bind, readMore]
      split
      · next h =>
        rw [h]
        rfl
      · next h =>
        rw [h, head?_cons, if_neg (by decide), if_pos rfl]
        cases readItems limits level fuel _ <;> rfl
      · next hbracket hcomma => rw [if_neg (head?_ne_some hbracket), if_neg (head?_ne_some hcomma)]

theorem collects_list : Collects limits level '[' ']' "array" (readItems limits (level + 1)) .list := by
  intro b s hb hs fuel off
  have hskip : (Place.advance ⟨off, .scalar '[' :: (b ++ s)⟩ 1).skipBlanks = ⟨off + 1 + b.length, s⟩ :=
    skipBlanks_opens hb hs (off + 1)
  rw [readValue]
  simp only [hskip]
  split
  · rfl
  · split
    · rfl
    · next h =>
      rw [if_neg (head?_ne_some h)]
      cases readItems limits (level + 1) fuel _ <;> rfl

/-- **A list reads as its elements do**, one level further in. -/
theorem readsTo_list (sp : Spacing)
    (h : List.Forall₂ (ReadsTo limits (level + 1)) texts rs) :
    ReadsTo limits level (sp.list texts)
      (if limits.depth ≤ level then .error "array" else (collect rs).map .list) :=
  collects_list.reads readsParts_items ⟨rfl, by decide⟩ sp h

/-! ### Objects -/

def EntryReadsTo (colon : Text) (limits : Limits) (level : Nat) (s : Text) (r : Except String (Value × Value)) : Prop :=
  ∃ q key v rv, s = q ++ .scalar ':' :: (colon ++ v) ∧ QuotedReads q key ∧ ReadsTo limits level v rv ∧
    r = rv.map fun x => (.str key, x)

theorem EntryReadsTo.opens {r : Except String (Value × Value)}
    (h : EntryReadsTo colon limits level s r) : ∃ c cs, s = c :: cs ∧ BeginsPart '\x7d' c := by
  obtain ⟨q, key, v, rv, rfl, ⟨⟨body, rfl⟩, -⟩, -⟩ := h
  exact ⟨_, _, rfl, rfl, by decide⟩

theorem readEntries_key {q key : Text} (hq : QuotedReads q key) (hcolon : IsBlanks colon)
    (hs : Opens (isJsonBlank · = false) s) (fuel off : Nat) :
    readEntries limits level (fuel + 1) ⟨off, q ++ .scalar ':' :: (colon ++ s)⟩
      = (readValue limits level fuel ⟨off + q.length + 1 + colon.length, s⟩).bind
          fun r => readMore (readEntries limits level) '\x7d' fuel (.str key, r.1) r.2.skipBlanks := by
  obtain ⟨⟨body, rfl⟩, hreads⟩ := hq
  have hkey := hreads off (.scalar ':' :: (colon ++ s))
  generalize hlen : List.length (CodePoint.scalar '"' :: body) = n at hkey ⊢
  have hback : (⟨off + n, .scalar ':' :: (colon ++ s)⟩ : Place).skipBlanks
      = ⟨off + n, .scalar ':' :: (colon ++ s)⟩ := skipBlanks_of_opens ⟨_, _, rfl, rfl⟩ _
  have hskip : (Place.advance ⟨off + n, .scalar ':' :: (colon ++ s)⟩ 1).skipBlanks
      = ⟨off + n + 1 + colon.length, s⟩ := skipBlanks_opens hcolon hs (off + n + 1)
  rw [cons_append] at hkey ⊢
  rw [readEntries]
  simp only [hkey, bind, Except.bind, hback, hskip]
  cases readValue limits level fuel ⟨off + n + 1 + colon.length, s⟩ with
  | error e => rfl
  | ok r =>
    simp only [readMore]
    split
    · next h =>
      rw [h]
      rfl
    · next h =>
      rw [h, head?_cons, if_neg (by decide), if_pos rfl]
      cases readEntries limits level fuel _ <;> rfl
    · next hbracket hcomma => rw [if_neg (head?_ne_some hbracket), if_neg (head?_ne_some hcomma)]

theorem readsParts_entries (hcolon : IsBlanks colon) :
    ReadsParts (readEntries limits level) '\x7d' (EntryReadsTo colon limits level) where
  bracket_eq := .inr rfl
  opens := EntryReadsTo.opens
  part := by
    rintro _ _ t off fuel ⟨q, key, v, rv, rfl, hq, hv, rfl⟩ ht hf
    have happ : q ++ .scalar ':' :: (colon ++ v) ++ t = q ++ .scalar ':' :: (colon ++ (v ++ t)) := by simp
    have hlen : (q ++ .scalar ':' :: (colon ++ v)).length = q.length + 1 + colon.length + v.length := by
      simp only [length_append, length_cons]
      omega
    have hopen : Opens (isJsonBlank · = false) (v ++ t) := opens_of (join_opens hv.opens_blankless [] [] t)
    rw [hlen] at hf ⊢
    rw [happ, readEntries_key hq hcolon hopen, hv.reads _ t fuel ht (by omega)]
    cases rv with
    | error c => rfl
    | ok x =>
      simp only [settle, Except.bind, Except.map, ← Nat.add_assoc]

theorem collects_object : Collects limits level '\x7b' '\x7d' "object" (readEntries limits (level + 1))
    fun entries => .dict (Value.insertAll [] entries) := by
  intro b s hb hs fuel off
  have hskip : (Place.advance ⟨off, .scalar '\x7b' :: (b ++ s)⟩ 1).skipBlanks = ⟨off + 1 + b.length, s⟩ :=
    skipBlanks_opens hb hs (off + 1)
  rw [readValue]
  simp only [hskip]
  split
  · rfl
  · split
    · rfl
    · next h =>
      rw [if_neg (head?_ne_some h)]
      cases readEntries limits (level + 1) fuel _ <;> rfl

/-- **An object reads as its entries do**, one level further in. -/
theorem readsTo_object (sp : Spacing) {rs : List (Except String (Value × Value))}
    (h : List.Forall₂ (EntryReadsTo sp.colon limits (level + 1)) texts rs) :
    ReadsTo limits level (sp.object texts)
      (if limits.depth ≤ level then .error "object"
        else (collect rs).map fun entries => .dict (Value.insertAll [] entries)) :=
  collects_object.reads (readsParts_entries sp.colon_blank) ⟨rfl, by decide⟩ sp h

theorem collect_ok (xs : List α) : collect (xs.map Except.ok) = .ok xs := by
  induction xs with
  | nil => rfl
  | cons x xs ih =>
    rw [map_cons, collect_ok_cons, ih]
    rfl

theorem forall₂_map_ok {β : Type} {r : Text → Except String β → Prop} {f : α → Text} {g : α → β} {xs : List α}
    (h : ∀ x ∈ xs, r (f x) (.ok (g x))) : List.Forall₂ r (xs.map f) ((xs.map g).map .ok) := by
  rw [map_map, forall₂_map_left_iff, forall₂_map_right_iff]
  exact forall₂_same.mpr h

theorem readsTo_list_ok (sp : Spacing) {f : α → Text} {g : α → Value} {xs : List α} (hl : level < limits.depth)
    (h : ∀ x ∈ xs, ReadsTo limits (level + 1) (f x) (.ok (g x))) :
    ReadsTo limits level (sp.list (xs.map f)) (.ok (.list (xs.map g))) := by
  have hread := readsTo_list sp (forall₂_map_ok h)
  rw [if_neg (Nat.not_le.mpr hl), collect_ok] at hread
  exact hread

theorem readsTo_object_ok (sp : Spacing) {f : α → Text} {g : α → Value × Value} {xs : List α}
    (hl : level < limits.depth) (h : ∀ x ∈ xs, EntryReadsTo sp.colon limits (level + 1) (f x) (.ok (g x))) :
    ReadsTo limits level (sp.object (xs.map f)) (.ok (.dict (Value.insertAll [] (xs.map g)))) := by
  have hread := readsTo_object sp (forall₂_map_ok h)
  rw [if_neg (Nat.not_le.mpr hl), collect_ok] at hread
  exact hread

theorem readsTo_compactList (h : List.Forall₂ (ReadsTo limits (level + 1)) texts rs) :
    ReadsTo limits level ("[" ++ Text.join "," texts ++ "]")
      (if limits.depth ≤ level then .error "array" else (collect rs).map .list) := by
  rw [← Spacing.tight_list]
  exact readsTo_list .tight h

theorem readsTo_compactObject {rs : List (Except String (Value × Value))}
    (h : List.Forall₂ (EntryReadsTo [] limits (level + 1)) texts rs) :
    ReadsTo limits level ("\x7b" ++ Text.join "," texts ++ "\x7d")
      (if limits.depth ≤ level then .error "object"
        else (collect rs).map fun entries => .dict (Value.insertAll [] entries)) := by
  rw [← Spacing.tight_object]
  exact readsTo_object .tight h

/-! ### Depth -/

theorem isOk_map {β : Type} (f : α → β) (r : Except String α) : (r.map f).isOk = r.isOk := by
  cases r <;> rfl

/-- A collection is read if it can be opened and its parts are read. -/
theorem isOk_collection {depth : Nat} (name : String) (f : List α → Value)
    {rs : List (Except String α)}
    (h : (∀ r ∈ rs, r.isOk = true) ↔ depth = 0 ∨ level + 1 + depth ≤ limits.depth) :
    (if limits.depth ≤ level then .error name else (collect rs).map f : Except String Value).isOk = true ↔
      1 + depth = 0 ∨ level + (1 + depth) ≤ limits.depth := by
  by_cases hd : limits.depth ≤ level
  · rw [if_pos hd]
    exact iff_of_false Bool.false_ne_true (by omega)
  · rw [if_neg hd, isOk_map, Json.collect_isOk, h]
    omega

/-! ### Whole texts -/

theorem ReadsTo.head?_ne_mark (h : ReadsTo limits level s r) : s.head? ≠ some (.scalar '\ufeff') := by
  intro hmark
  obtain ⟨c, cs, rfl, -, -⟩ := h.opens
  cases hmark
  have hread := h.reads 0 [] (2 * List.length (CodePoint.scalar '\ufeff' :: cs)) stops_nil (Nat.le_refl _)
  rw [length_cons, Nat.mul_succ, cons_append,
    readValue_other (by decide) (by decide) (by decide)] at hread
  cases r <;> cases hread

theorem ReadsTo.readWithin (h : ReadsTo limits 0 s r) : readWithin limits s = (settle r ⟨s.length, []⟩).map (·.1) := by
  have hskip := skipBlanks_of_opens (join_opens h.opens_blankless [] [] []) 0
  have hread := h.reads 0 [] (2 * s.length + 2) stops_nil (by omega)
  simp only [Text.join, append_nil] at hskip
  rw [append_nil, Nat.zero_add] at hread
  rw [Json.readWithin, if_neg (by simpa using h.head?_ne_mark)]
  simp only [hskip, hread]
  cases r <;> rfl

end

end PluginKit.Json
