import Mathlib.Tactic
import PluginKit.Text.Basic

/-!
# How literals are read

The reader of a generated module takes a text literal to reach from its opening quotes to the closing ones; a backslash
takes the character after it along. Then the escapes are replaced, except in a raw literal. So a text that is put
between quotes as it is comes back exactly if it holds no quote and no backslash that begins an escape
(`read_quoted_iff`), or, in a raw literal, no quote without a backslash (`read_raw_iff`).
-/

namespace PluginKit.Text.Literal

open List

variable {taken : Bool} {s b rest cs : Text} {c d : CodePoint} {used : Nat}

def isLineChar : CodePoint → Bool
  | .scalar c => c != '\n' && c != '\r' && c.toNat != 0
  | .surrogate _ => false

/-! ### Closing quotes -/

/-- The text up to the closing quotes, and what stands behind them. A backslash takes the next character along; if
`taken`, then the text begins with such a character. -/
def closing (quotes : Text) (taken : Bool) : Text → Option (Text × Text)
  | [] => none
  | c :: cs =>
    if !taken && quotes.isPrefixOf (c :: cs) then some ([], (c :: cs).drop quotes.length)
    else (closing quotes (!taken && c == '\\') cs).map fun r => (c :: r.1, r.2)

/-- No quote in the text closes a literal, and no backslash at its end takes along the quote behind it. -/
def staysOpen (taken : Bool) : Text → Bool
  | [] => !taken
  | c :: cs => (taken || c != '"') && staysOpen (!taken && c == '\\') cs

theorem closing_eq {quotes : Text} (h : closing quotes taken s = some (b, rest)) : s = b ++ quotes ++ rest := by
  induction s generalizing taken b with
  | nil => cases h
  | cons c cs ih =>
    rw [closing] at h
    split at h
    · next hquotes =>
      cases h
      have hprefix : quotes <+: c :: cs := isPrefixOf_iff_prefix.mp (Bool.and_eq_true_iff.mp hquotes).2
      exact prefix_iff_eq_append.mp hprefix |>.symm
    · obtain ⟨r, hr, he⟩ := Option.map_eq_some_iff.mp h
      cases he
      rw [ih hr]
      rfl

/-- The quote behind a text closes the literal exactly if nothing in the text does. -/
theorem closing_quote_iff :
    closing [.scalar '"'] taken (s ++ .scalar '"' :: rest) = some (s, rest) ↔ staysOpen taken s = true := by
  induction s generalizing taken with
  | nil =>
    cases taken with
    | false => simp [closing, staysOpen]
    | true => simp [closing, staysOpen]
  | cons c cs ih =>
    rw [cons_append, closing, staysOpen]
    by_cases hc : taken = false ∧ c = '"'
    · obtain ⟨rfl, rfl⟩ := hc
      simp
    · have hopen : (taken || c != '"') = true := by
        cases taken with
        | false => simpa using hc
        | true => rfl
      have hnot : ¬ (!taken && [CodePoint.scalar '"'].isPrefixOf (c :: (cs ++ .scalar '"' :: rest))) = true := by
        simp only [List.isPrefixOf, Bool.and_true, Bool.and_eq_true, Bool.not_eq_true', beq_iff_eq, not_and]
        exact fun ht he => hc ⟨ht, he.symm⟩
      rw [if_neg hnot, hopen, Bool.true_and, ← ih, Option.map_eq_some_iff]
      constructor
      · rintro ⟨r, hr, he⟩
        cases he
        exact hr
      · exact fun h => ⟨_, h, rfl⟩

/-! ### Escapes -/

/-- What a backslash stands for, together with the text behind it. -/
inductive Escape where
  | backslash
  /-- A character, together with this many characters of the text. -/
  | char (c : CodePoint) (used : Nat)
  | malformed
  deriving DecidableEq, Repr

def letters : List (CodePoint × CodePoint) :=
  [('\\', '\\'), ('\'', '\''), ('"', '"'), ('a', '\x07'), ('b', '\x08'), ('f', '\x0c'), ('n', '\n'), ('r', '\r'),
    ('t', '\t'), ('v', '\x0b')]

def isOctal (c : CodePoint) : Bool := ("01234567" : Text).contains c

def octalNumber (digits : Text) : Nat := digits.foldl (fun n d => 8 * n + (d.toNat - '0'.toNat)) 0

/-- An escape by the hexadecimal code of a character, behind its letter. -/
def hexEscape (width : Nat) (cs : Text) : Escape :=
  if cs.length < width then .malformed
  else
    match hexNumber? (cs.take width) with
    | some n => if n < 0x110000 then .char (.ofNat n) (width + 1) else .malformed
    | none => .malformed

def namedEscape (names : Text → Option CodePoint) : Text → Escape
  | .scalar '\x7b' :: cs =>
    let name := cs.takeWhile (· != .scalar '\x7d')
    if name.length < cs.length then
      match names name with
      | some c => .char c (name.length + 3)
      | none => .malformed
    else .malformed
  | _ => .malformed

/-- The escape that a text behind a backslash begins with; `names` are the names of characters. -/
def escape (names : Text → Option CodePoint) : Text → Escape
  | [] => .backslash
  | c :: cs =>
    match letters.lookup c with
    | some d => .char d 1
    | none =>
      if isOctal c then
        let digits := c :: (cs.take 2).takeWhile isOctal
        .char (.ofNat (octalNumber digits)) digits.length
      else if c = 'x' then hexEscape 2 cs
      else if c = 'u' then hexEscape 4 cs
      else if c = 'U' then hexEscape 8 cs
      else if c = 'N' then namedEscape names cs
      else .backslash

/-- The text with its escapes replaced, from the point where `skip` more characters have been passed. -/
def unescapeFrom (names : Text → Option CodePoint) : Nat → Text → Option Text
  | _, [] => some []
  | skip + 1, _ :: cs => unescapeFrom names skip cs
  | 0, c :: cs =>
    if c = '\\' then
      match escape names cs with
      | .backslash => (unescapeFrom names 0 cs).map (c :: ·)
      | .char d used => (unescapeFrom names used cs).map (d :: ·)
      | .malformed => none
    else (unescapeFrom names 0 cs).map (c :: ·)

def unescape (names : Text → Option CodePoint) (s : Text) : Option Text := unescapeFrom names 0 s

def isEscapeChar (c : CodePoint) : Bool :=
  (letters.lookup c).isSome || isOctal c || ("xuUN" : Text).contains c

/-- Every backslash stands before a character that it does not change. -/
def backslashesStay : Text → Bool
  | [] => true
  | c :: cs => (c != '\\' || cs.head?.any fun d => !isEscapeChar d) && backslashesStay cs

section
variable {names : Text → Option CodePoint}

theorem hexEscape_ne_backslash (width : Nat) (cs : Text) : hexEscape width cs ≠ .backslash := by
  unfold hexEscape
  split
  · exact nofun
  · split
    · split <;> exact nofun
    · exact nofun

theorem namedEscape_ne_backslash (cs : Text) : namedEscape names cs ≠ .backslash := by
  unfold namedEscape
  split
  · dsimp only
    split
    · split <;> exact nofun
    · exact nofun
  · exact nofun

theorem escape_eq_backslash_iff : escape names (c :: cs) = .backslash ↔ isEscapeChar c = false := by
  rw [escape, isEscapeChar]
  cases hletter : letters.lookup c with
  | some d => simp
  | none =>
    simp only [Option.isSome_none, Bool.false_or, Bool.or_eq_false_iff]
    split
    · next h => simp [h]
    · next h =>
      have hword : ("xuUN" : Text).contains c = false ↔ c ≠ 'x' ∧ c ≠ 'u' ∧ c ≠ 'U' ∧ c ≠ 'N' := by
        rw [← Bool.not_eq_true, contains_iff_mem]
        change ¬ c ∈ [CodePoint.scalar 'x', .scalar 'u', .scalar 'U', .scalar 'N'] ↔ _
        simp only [mem_cons, not_mem_nil, or_false, not_or]
      rw [hword]
      split
      · next hc => exact iff_of_false (hexEscape_ne_backslash _ _) fun h => h.2.1 hc
      · split
        · next hc => exact iff_of_false (hexEscape_ne_backslash _ _) fun h => h.2.2.1 hc
        · split
          · next hc => exact iff_of_false (hexEscape_ne_backslash _ _) fun h => h.2.2.2.1 hc
          · split
            · next hc => exact iff_of_false (namedEscape_ne_backslash _) fun h => h.2.2.2.2 hc
            · next hx hu hU hN => exact iff_of_true rfl ⟨by simpa using h, hx, hu, hU, hN⟩

theorem hexEscape_used {width : Nat} (h : hexEscape width cs = .char d used) : 1 ≤ used := by
  unfold hexEscape at h
  split at h
  · cases h
  · split at h
    · split at h
      · cases h
        omega
      · cases h
    · cases h

theorem namedEscape_used (h : namedEscape names cs = .char d used) : 1 ≤ used := by
  unfold namedEscape at h
  split at h
  · dsimp only at h
    split at h
    · split at h
      · cases h
        omega
      · cases h
    · cases h
  · cases h

theorem escape_used (h : escape names (c :: cs) = .char d used) : 1 ≤ used := by
  rw [escape] at h
  split at h
  · cases h
    omega
  · split at h
    · cases h
      simp
    · split at h
      · exact hexEscape_used h
      · split at h
        · exact hexEscape_used h
        · split at h
          · exact hexEscape_used h
          · split at h
            · exact namedEscape_used h
            · cases h

theorem length_unescapeFrom {skip : Nat} {t : Text} (h : unescapeFrom names skip s = some t) :
    t.length ≤ s.length - skip := by
  induction s generalizing skip t with
  | nil =>
    cases skip <;>
    · cases h
      exact Nat.zero_le _
  | cons c cs ih =>
    cases skip with
    | succ skip =>
      have := @ih skip t h
      rw [length_cons]
      omega
    | zero =>
      rw [unescapeFrom] at h
      split at h
      · split at h
        · obtain ⟨u, hu, rfl⟩ := Option.map_eq_some_iff.mp h
          have := ih hu
          simp only [length_cons]
          omega
        · obtain ⟨u, hu, rfl⟩ := Option.map_eq_some_iff.mp h
          have := ih hu
          simp only [length_cons]
          omega
        · cases h
      · obtain ⟨u, hu, rfl⟩ := Option.map_eq_some_iff.mp h
        have := ih hu
        simp only [length_cons]
        omega

theorem map_cons_eq_iff {x : Option Text} : x.map (c :: ·) = some (c :: cs) ↔ x = some cs := by
  rw [Option.map_eq_some_iff]
  constructor
  · rintro ⟨u, hu, he⟩
    cases he
    exact hu
  · exact fun h => ⟨cs, h, rfl⟩

/-- The text behind a backslash stays as it is only if the backslash does: any escape is longer than its character. -/
theorem unescape_backslash_iff :
    unescape names (.scalar '\\' :: cs) = some (.scalar '\\' :: cs) ↔
      (cs.head?.all fun d => !isEscapeChar d) = true ∧ unescape names cs = some cs := by
  unfold unescape
  rw [unescapeFrom, if_pos rfl]
  cases cs with
  | nil => simp [escape, unescapeFrom]
  | cons d ds =>
    rw [head?_cons, Option.all_some, Bool.not_eq_true', ← @escape_eq_backslash_iff ds d names]
    cases hescape : escape names (d :: ds) with
    | backslash => simp
    | malformed => simp
    | char e used =>
      refine iff_of_false (fun h => ?_) (by simp)
      obtain ⟨u, hu, he⟩ := Option.map_eq_some_iff.mp h
      have hlength := length_unescapeFrom hu
      have hused := escape_used hescape
      cases he
      simp only [length_cons] at hlength
      omega

theorem unescape_cons_iff (hc : c ≠ '\\') :
    unescape names (c :: cs) = some (c :: cs) ↔ unescape names cs = some cs := by
  unfold unescape
  rw [unescapeFrom, if_neg hc, map_cons_eq_iff]

end

/-! ### Texts between quotes -/

theorem isEscapeChar_quote : isEscapeChar (.scalar '"') = true := by decide

theorem isEscapeChar_backslash : isEscapeChar (.scalar '\\') = true := by decide

theorem staysOpen_taken {ds : Text} (h : isEscapeChar d = false) :
    staysOpen true (d :: ds) = staysOpen false (d :: ds) := by
  have hquote : d ≠ .scalar '"' := by
    rintro rfl
    cases isEscapeChar_quote.symm.trans h
  have hbackslash : d ≠ .scalar '\\' := by
    rintro rfl
    cases isEscapeChar_backslash.symm.trans h
  simp [staysOpen, bne_iff_ne.mpr hquote, beq_eq_false_iff_ne.mpr hbackslash]

/-- A text is kept by an ordinary literal exactly if it has no quote, and no backslash that begins an escape. -/
theorem kept_iff {names : Text → Option CodePoint} :
    staysOpen false s = true ∧ unescape names s = some s ↔ .scalar '"' ∉ s ∧ backslashesStay s = true := by
  induction s with
  | nil => simp [staysOpen, unescape, unescapeFrom, backslashesStay]
  | cons c cs ih =>
    by_cases hc : c = '\\'
    · subst hc
      have hquote : (CodePoint.scalar '"') ∉ CodePoint.scalar '\\' :: cs ↔ (CodePoint.scalar '"') ∉ cs := by simp
      have hopen : staysOpen false (.scalar '\\' :: cs) = staysOpen true cs := by simp [staysOpen]
      rw [unescape_backslash_iff, hquote, hopen, backslashesStay]
      cases cs with
      | nil => simp [staysOpen]
      | cons d ds =>
        by_cases hd : isEscapeChar d = true
        · simp [hd]
        · rw [Bool.not_eq_true] at hd
          rw [staysOpen_taken hd]
          simp only [head?_cons, Option.all_some, Option.any_some, hd, Bool.not_false, true_and, ih, bne_self_eq_false,
            Bool.false_or, Bool.true_and]
    · have hopen : staysOpen false (c :: cs) = true ↔ c ≠ '"' ∧ staysOpen false cs = true := by
        simp [staysOpen, beq_eq_false_iff_ne.mpr hc]
      have hstay : backslashesStay (c :: cs) = backslashesStay cs := by simp [backslashesStay, hc]
      rw [unescape_cons_iff hc, hopen, hstay, and_assoc, ih, mem_cons, not_or, and_assoc, ne_comm]

/-! ### Literals -/

/-- What stands between the quotes at the beginning of a text, and what stands behind. -/
def body : Text → Option (Text × Text)
  | .scalar '"' :: .scalar '"' :: .scalar '"' :: s => closing "\"\"\"" false s
  | .scalar '"' :: s => closing [.scalar '"'] false s
  | _ => none

/-- The text of the literal that code begins with, and what stands behind the literal. -/
def read (names : Text → Option CodePoint) : Text → Option (Text × Text)
  | .scalar 'r' :: s => body s
  | s => (body s).bind fun r => (unescape names r.1).map fun t => (t, r.2)

theorem body_length (h : body s = some (b, rest)) :
    s = .scalar '"' :: (b ++ .scalar '"' :: rest) ∧ closing [.scalar '"'] false (b ++ .scalar '"' :: rest) = some (b, rest) ∨
      s.length = b.length + 6 + rest.length := by
  unfold body at h
  split at h
  · next s =>
    right
    rw [closing_eq h]
    simp only [length_cons, length_append]
    change b.length + 3 + rest.length + 1 + 1 + 1 = _
    omega
  · next s _ =>
    left
    have hs := closing_eq h
    rw [append_assoc] at hs
    exact ⟨congrArg _ hs, hs ▸ h⟩
  · cases h

theorem body_quote (h : staysOpen false s = true) (hrest : rest.head? ≠ some (.scalar '"')) :
    body (.scalar '"' :: (s ++ .scalar '"' :: rest)) = some (s, rest) := by
  have hclosing := (@closing_quote_iff false s rest).mpr h
  unfold body
  split
  · next t he =>
    obtain ⟨-, he⟩ := List.cons.inj he
    cases s with
    | nil =>
      cases he
      exact absurd rfl hrest
    | cons c cs =>
      obtain ⟨rfl, -⟩ := List.cons.inj he
      cases h
  · next t _ he =>
    cases he
    exact hclosing
  · next _ hne => exact absurd rfl (hne _)

/-- **A text between quotes as it is** comes back exactly if it holds no quote and no backslash that begins an
escape. -/
theorem read_quoted_iff {names : Text → Option CodePoint} (hrest : rest.head? ≠ some (.scalar '"')) :
    read names (.scalar '"' :: (s ++ .scalar '"' :: rest)) = some (s, rest) ↔
      .scalar '"' ∉ s ∧ backslashesStay s = true := by
  rw [← @kept_iff _ names]
  change (body _).bind _ = _ ↔ _
  constructor
  · intro h
    obtain ⟨⟨b, after⟩, hbody, h⟩ := Option.bind_eq_some_iff.mp h
    obtain ⟨t, ht, he⟩ := Option.map_eq_some_iff.mp h
    cases he
    have hlength : s.length ≤ b.length := length_unescapeFrom ht
    rcases body_length hbody with ⟨he, hclosing⟩ | he
    · have hb : b = s := by
        have := (List.cons.inj he).2
        exact (append_left_inj _).mp this.symm
      subst hb
      exact ⟨closing_quote_iff.mp hclosing, ht⟩
    · simp only [length_cons, length_append] at he
      omega
  · rintro ⟨hopen, hescape⟩
    rw [body_quote hopen hrest, Option.bind_some, hescape, Option.map_some]

/-- **A text in a raw literal** comes back exactly if no quote in it closes the literal. -/
theorem read_raw_iff {names : Text → Option CodePoint} (hrest : rest.head? ≠ some (.scalar '"')) :
    read names (.scalar 'r' :: .scalar '"' :: (s ++ .scalar '"' :: rest)) = some (s, rest) ↔
      staysOpen false s = true := by
  change body _ = _ ↔ _
  refine ⟨fun h => ?_, fun h => body_quote h hrest⟩
  rcases body_length h with ⟨-, hclosing⟩ | he
  · exact closing_quote_iff.mp hclosing
  · simp only [length_cons, length_append] at he
    omega

end PluginKit.Text.Literal
