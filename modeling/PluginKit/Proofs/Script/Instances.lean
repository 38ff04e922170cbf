import PluginKit.Proofs.Script.SinglePass

/-!
# The messages of a match text

The placeholders of a match text cut it into literal pieces (`Template`). Its regular expression, read back as one
(`readAtoms`), is matched by exactly the messages that have a line's worth of text in the place of every placeholder,
and by these with a line feed at the end (`matchPattern_accepts_iff`). So it says of the match text all but the names of
the placeholders.
-/

namespace PluginKit.Script

open Text
open List hiding after

/-! ### Regular expressions -/

/-- A part of a regular expression, as far as match texts give rise to it. -/
inductive Atom where
  | start
  /-- The end of the message, or the place before a line feed that ends it. -/
  | stop
  | char (c : CodePoint)
  /-- A group that captures one or more characters other than line feeds. -/
  | group
  deriving DecidableEq

/-- The character does not stand for itself in a regular expression. -/
def isOperator (c : CodePoint) : Bool := (".^$*+?\x7b\x7d[]\\|()" : Text).contains c

def isLetterOrDigit : CodePoint → Bool
  | .scalar c => c.isAlphanum
  | .surrogate _ => false

/-- The parts of a regular expression, if it has no others than these. -/
def readAtoms : Text → Option (List Atom)
  | [] => some []
  | c :: s =>
    if c = '\\' then
      match s with
      | [] => none
      | d :: rest => if isLetterOrDigit d then none else (readAtoms rest).map (.char d :: ·)
    else if c = '(' then
      match s with
      | d :: e :: f :: rest =>
        if d = '.' ∧ e = '+' ∧ f = ')' then (readAtoms rest).map (.group :: ·) else none
      | _ => none
    else if c = '^' then (readAtoms s).map (.start :: ·)
    else if c = '$' then (readAtoms s).map (.stop :: ·)
    else if isOperator c then none
    else (readAtoms s).map (.char c :: ·)

structure IsCaptured (x : Text) : Prop where
  nonempty : x ≠ []
  line : .scalar '\n' ∉ x

instance (x : Text) : Decidable (IsCaptured x) :=
  decidable_of_iff (x ≠ [] ∧ .scalar '\n' ∉ x) ⟨fun h => ⟨h.1, h.2⟩, fun h => ⟨h.nonempty, h.line⟩⟩

/-- The parts match a message, given by what stands before the place at which they begin and what stands behind it. -/
def Runs : List Atom → Text → Text → Prop
  | [], _, _ => True
  | .start :: atoms, before, after => before = [] ∧ Runs atoms before after
  | .stop :: atoms, before, after => (after = [] ∨ after = [.scalar '\n']) ∧ Runs atoms before after
  | .char c :: atoms, before, after => ∃ rest, after = c :: rest ∧ Runs atoms (before ++ [c]) rest
  | .group :: atoms, before, after =>
    ∃ x rest, after = x ++ rest ∧ IsCaptured x ∧ Runs atoms (before ++ x) rest

/-- The regular expression matches the message from this place on. -/
def MatchesAt (pattern before after : Text) : Prop :=
  ∃ atoms, readAtoms pattern = some atoms ∧ Runs atoms before after

-- an operator that has no escape, and an escape that is none of a character, are not read
example : readAtoms "^a\\.(.+)$" = some [.start, .char 'a', .char '.', .group, .stop] := by decide +kernel
example : readAtoms "a+" = none ∧ readAtoms "\\d" = none := by decide +kernel

/-! ### Parts of a match text -/

def Piece.atom : Piece → Atom
  | char c => .char c
  | hole _ => .group

theorem readAtoms_capture (s : Text) : readAtoms (capture ++ s) = (readAtoms s).map (.group :: ·) := by
  show readAtoms (.scalar '(' :: .scalar '.' :: .scalar '+' :: .scalar ')' :: s) = _
  rw [readAtoms, if_neg (by decide), if_pos rfl]
  exact if_pos ⟨rfl, rfl, rfl⟩

theorem readAtoms_char (c : CodePoint) (s : Text) :
    readAtoms (escapeRegexChar c ++ s) = (readAtoms s).map (.char c :: ·) := by
  by_cases h : isSpecial c = true
  · have hall : ∀ d ∈ ("()[]\x7b\x7d?*+-|^$\\.&~# \t\n\r\x0b\x0c" : Text), ¬ isLetterOrDigit d = true := by decide
    have hc : ¬ isLetterOrDigit c = true := by
      rw [isSpecial, contains_iff_mem] at h
      exact hall c h
    rw [escapeRegexChar_of_special h]
    show readAtoms (.scalar '\\' :: c :: s) = _
    rw [readAtoms, if_pos rfl]
    exact if_neg hc
  · have hall : ∀ d ∈ (".^$*+?\x7b\x7d[]\\|()" : Text), isSpecial d = true := by decide
    have hne : ∀ d : CodePoint, isSpecial d = true → c ≠ d := by
      rintro d hd rfl
      exact h hd
    have hc : ¬ isOperator c = true := by
      rw [isOperator, contains_iff_mem]
      exact fun hmem => h (hall c hmem)
    rw [escapeRegexChar_of_not_special h]
    show readAtoms (c :: s) = _
    rw [readAtoms.eq_def]
    simp only [if_neg (hne _ (show isSpecial '\\' = true by decide)), if_neg (hne _ (show isSpecial '(' = true by decide)),
      if_neg (hne _ (show isSpecial '^' = true by decide)), if_neg (hne _ (show isSpecial '$' = true by decide)), if_neg hc]

theorem readAtoms_pieces (pieces : List Piece) (s : Text) :
    readAtoms (pieces.flatMap Piece.pattern ++ s) = (readAtoms s).map (pieces.map Piece.atom ++ ·) := by
  induction pieces with
  | nil => exact Option.map_id'.symm
  | cons p pieces ih =>
    rw [flatMap_cons, append_assoc]
    cases p with
    | char c =>
      rw [Piece.pattern, readAtoms_char, ih, Option.map_map]
      rfl
    | hole word =>
      rw [Piece.pattern, readAtoms_capture, ih, Option.map_map]
      rfl

/-- **A match text read as a regular expression**: its pieces between the two ends. -/
theorem readAtoms_matchPattern {m : Text} (hm : m.head? ≠ some (.scalar '^')) {pieces : List Piece}
    (h : Splits m pieces) : readAtoms (matchPattern m) = some (.start :: (pieces.map Piece.atom ++ [.stop])) := by
  have hend : readAtoms ("$" : Text) = some [.stop] := by decide
  rw [matchPattern_eq hm h, append_assoc]
  show readAtoms (.scalar '^' :: (pieces.flatMap Piece.pattern ++ ("$" : Text))) = _
  have hstart : ∀ s, readAtoms (.scalar '^' :: s) = (readAtoms s).map (.start :: ·) := fun s => by
    rw [readAtoms.eq_def]
    rfl
  rw [hstart, readAtoms_pieces, hend]
  rfl

/-- The text has the characters of the pieces, and something captured for every placeholder. -/
def Spells : List Piece → Text → Prop
  | [], u => u = []
  | .char c :: pieces, u => ∃ rest, u = c :: rest ∧ Spells pieces rest
  | .hole _ :: pieces, u => ∃ x rest, u = x ++ rest ∧ IsCaptured x ∧ Spells pieces rest

theorem runs_pieces (pieces : List Piece) (atoms : List Atom) (before after : Text) :
    Runs (pieces.map Piece.atom ++ atoms) before after ↔
      ∃ u rest, after = u ++ rest ∧ Spells pieces u ∧ Runs atoms (before ++ u) rest := by
  induction pieces generalizing before after with
  | nil =>
    constructor
    · exact fun h => ⟨[], after, rfl, rfl, by rwa [append_nil]⟩
    · rintro ⟨_, rest, rfl, rfl, h⟩
      rwa [append_nil] at h
  | cons p pieces ih =>
    cases p with
    | char c =>
      constructor
      · rintro ⟨_, rfl, h⟩
        obtain ⟨u, rest, rfl, hu, h⟩ := (ih _ _).mp h
        exact ⟨c :: u, rest, rfl, ⟨u, rfl, hu⟩, by rwa [append_cons]⟩
      · rintro ⟨_, rest, rfl, ⟨u, rfl, hu⟩, h⟩
        rw [append_cons] at h
        exact ⟨u ++ rest, rfl, (ih _ _).mpr ⟨u, rest, rfl, hu, h⟩⟩
    | hole word =>
      constructor
      · rintro ⟨x, _, rfl, hx, h⟩
        obtain ⟨u, rest, rfl, hu, h⟩ := (ih _ _).mp h
        exact ⟨x ++ u, rest, (append_assoc _ _ _).symm, ⟨x, u, rfl, hx, hu⟩, by rwa [← append_assoc]⟩
      · rintro ⟨_, rest, rfl, ⟨x, u, rfl, hx, hu⟩, h⟩
        rw [← append_assoc] at h
        exact ⟨x, u ++ rest, append_assoc _ _ _, hx, (ih _ _).mpr ⟨u, rest, rfl, hu, h⟩⟩

/-! ### Literal pieces -/

instance (word : Text) : Decidable (IsName word) :=
  decidable_of_iff (word ≠ [] ∧ ∀ c ∈ word, isWord c = true) ⟨fun h => ⟨h.1, h.2⟩, fun h => ⟨h.nonempty, h.chars⟩⟩

/-- The text of placeholders and of the literal pieces behind them. -/
def textOf (rest : List (Text × Text)) : Text := rest.flatMap fun p => inBraces p.1 ++ p.2

/-- A match text, cut at its placeholders. -/
structure Template where
  first : Text
  rest : List (Text × Text)
  names : ∀ p ∈ rest, IsName p.1
  plain_first : placeholders first = []
  plain_rest : ∀ p ∈ rest, placeholders p.2 = []

namespace Template

def text (t : Template) : Text := t.first ++ textOf t.rest

def literals (t : Template) : List Text := t.first :: t.rest.map Prod.snd

def filled (t : Template) (xs : List Text) : Text :=
  t.first ++ (List.zipWith (fun x p => x ++ p.2) xs t.rest).flatten

/-- The text has something captured in the place of each placeholder. -/
def IsInstance (t : Template) (u : Text) : Prop :=
  ∃ xs : List Text, xs.length = t.rest.length ∧ (∀ x ∈ xs, IsCaptured x) ∧ u = t.filled xs

end Template

/-- The pieces of placeholders and of the literal pieces behind them. -/
def piecesOf (rest : List (Text × Text)) : List Piece := rest.flatMap fun p => .hole p.1 :: p.2.map .char

def Template.pieces (t : Template) : List Piece := t.first.map .char ++ piecesOf t.rest

theorem textOf_cons (p : Text × Text) (rest : List (Text × Text)) :
    textOf (p :: rest) = .scalar '\x7b' :: (p.1 ++ .scalar '\x7d' :: (p.2 ++ textOf rest)) := by
  simp [textOf, inBraces]

theorem piecesOf_cons (p : Text × Text) (rest : List (Text × Text)) :
    piecesOf (p :: rest) = .hole p.1 :: (p.2.map .char ++ piecesOf rest) := flatMap_cons

/-- No placeholder reaches from a literal piece into the next placeholder. -/
theorem placeholder?_append_textOf {l : Text} (h : placeholder? l = none) (rest : List (Text × Text)) :
    placeholder? (l ++ textOf rest) = none := by
  cases rest with
  | nil => rwa [textOf, flatMap_nil, append_nil]
  | cons p rest =>
    by_contra hne
    obtain ⟨word, hword⟩ := Option.ne_none_iff_exists'.mp hne
    obtain ⟨hname, tail, htail⟩ := placeholder?_eq_some_iff.mp hword
    have hbrace : CodePoint.scalar '\x7b' ∉ word ++ [.scalar '\x7d'] := by
      rw [mem_append, mem_singleton, not_or]
      exact ⟨hname.not_mem (by decide), by decide⟩
    have hprefix : word ++ [.scalar '\x7d'] <+: l ++ .scalar '\x7b' :: (p.1 ++ .scalar '\x7d' :: (p.2 ++ textOf rest)) := by
      rw [← textOf_cons, htail]
      exact ⟨tail, by rw [append_assoc, singleton_append]⟩
    obtain ⟨end', hend⟩ := prefix_of_prefix_append_cons hbrace hprefix
    rw [append_assoc, singleton_append] at hend
    rw [placeholder?_eq_some_iff.mpr ⟨hname, end', hend.symm⟩] at h
    cases h

theorem splits_literal {l : Text} (hl : placeholders l = []) {rest : List (Text × Text)}
    (h : Splits (textOf rest) (piecesOf rest)) : Splits (l ++ textOf rest) (l.map .char ++ piecesOf rest) := by
  induction l with
  | nil => exact h
  | cons c l ih =>
    rw [placeholders_cons, append_eq_nil_iff, Option.toList_eq_nil_iff] at hl
    refine .char (fun hc => ?_) (ih hl.2)
    rw [if_pos hc] at hl
    exact placeholder?_append_textOf hl.1 rest

theorem splits_textOf {rest : List (Text × Text)} (hnames : ∀ p ∈ rest, IsName p.1)
    (hplain : ∀ p ∈ rest, placeholders p.2 = []) : Splits (textOf rest) (piecesOf rest) := by
  induction rest with
  | nil => exact .nil
  | cons p rest ih =>
    obtain ⟨hname, hnames⟩ := forall_mem_cons.mp hnames
    obtain ⟨hp, hplain⟩ := forall_mem_cons.mp hplain
    rw [textOf_cons, piecesOf_cons]
    exact .hole hname (splits_literal hp (ih hnames hplain))

theorem Template.splits (t : Template) : Splits t.text t.pieces :=
  splits_literal t.plain_first (splits_textOf t.names t.plain_rest)

theorem exists_template (m : Text) : ∃ t : Template, t.text = m := by
  obtain ⟨pieces, h⟩ := exists_splits m
  induction h with
  | nil => exact ⟨⟨[], [], by simp, rfl, by simp⟩, rfl⟩
  | @hole word s pieces hw _ ih =>
    obtain ⟨t, rfl⟩ := ih
    refine ⟨⟨[], (word, t.first) :: t.rest, forall_mem_cons.mpr ⟨hw, t.names⟩, rfl,
      forall_mem_cons.mpr ⟨t.plain_first, t.plain_rest⟩⟩, ?_⟩
    exact textOf_cons _ _
  | @char c s pieces hc _ ih =>
    obtain ⟨t, rfl⟩ := ih
    refine ⟨⟨c :: t.first, t.rest, t.names, ?_, t.plain_rest⟩, rfl⟩
    rw [placeholders_cons, t.plain_first, append_nil, Option.toList_eq_nil_iff]
    split
    · next hbrace =>
      by_contra hne
      obtain ⟨word, hword⟩ := Option.ne_none_iff_exists'.mp hne
      obtain ⟨hname, tail, htail⟩ := placeholder?_eq_some_iff.mp hword
      have hlong : placeholder? t.text = some word := by
        refine placeholder?_eq_some_iff.mpr ⟨hname, tail ++ textOf t.rest, ?_⟩
        rw [Template.text, htail, append_assoc, cons_append]
      rw [hc hbrace] at hlong
      cases hlong
    · rfl

/-! ### Instances -/

theorem spells_literal (l : Text) (pieces : List Piece) (u : Text) :
    Spells (l.map .char ++ pieces) u ↔ ∃ v, u = l ++ v ∧ Spells pieces v := by
  induction l generalizing u with
  | nil =>
    constructor
    · exact fun h => ⟨u, rfl, h⟩
    · rintro ⟨v, rfl, h⟩
      exact h
  | cons c l ih =>
    constructor
    · rintro ⟨_, rfl, h⟩
      obtain ⟨v, rfl, hv⟩ := (ih _).mp h
      exact ⟨v, rfl, hv⟩
    · rintro ⟨v, rfl, hv⟩
      exact ⟨l ++ v, rfl, (ih _).mpr ⟨v, rfl, hv⟩⟩

theorem spells_piecesOf (rest : List (Text × Text)) (u : Text) : Spells (piecesOf rest) u ↔
    ∃ xs : List Text, xs.length = rest.length ∧ (∀ x ∈ xs, IsCaptured x) ∧
      u = (List.zipWith (fun x p => x ++ p.2) xs rest).flatten := by
  induction rest generalizing u with
  | nil =>
    constructor
    · rintro rfl
      exact ⟨[], rfl, by simp, rfl⟩
    · rintro ⟨xs, hlength, -, rfl⟩
      rw [length_eq_zero_iff.mp hlength]
      rfl
  | cons p rest ih =>
    rw [piecesOf_cons]
    constructor
    · rintro ⟨x, _, rfl, hx, h⟩
      obtain ⟨v, rfl, hv⟩ := (spells_literal _ _ _).mp h
      obtain ⟨xs, hlength, hxs, rfl⟩ := (ih v).mp hv
      refine ⟨x :: xs, by rw [length_cons, hlength, length_cons], forall_mem_cons.mpr ⟨hx, hxs⟩, ?_⟩
      rw [zipWith_cons_cons, flatten_cons, append_assoc]
    · rintro ⟨xs, hlength, hxs, rfl⟩
      cases xs with
      | nil => cases hlength
      | cons x xs =>
        obtain ⟨hx, hxs⟩ := forall_mem_cons.mp hxs
        rw [zipWith_cons_cons, flatten_cons, append_assoc]
        refine ⟨x, _, rfl, hx, (spells_literal _ _ _).mpr ⟨_, rfl, (ih _).mpr ⟨xs, ?_, hxs, rfl⟩⟩⟩
        exact Nat.succ.inj hlength

theorem Template.spells_pieces (t : Template) (u : Text) : Spells t.pieces u ↔ t.IsInstance u := by
  rw [Template.pieces, spells_literal]
  constructor
  · rintro ⟨v, rfl, hv⟩
    obtain ⟨xs, hlength, hxs, rfl⟩ := (spells_piecesOf _ _).mp hv
    exact ⟨xs, hlength, hxs, rfl⟩
  · rintro ⟨xs, hlength, hxs, rfl⟩
    exact ⟨_, rfl, (spells_piecesOf _ _).mpr ⟨xs, hlength, hxs, rfl⟩⟩

/-- The regular expression of a match text matches from the beginning only, up to the end or to a line feed there. -/
theorem Template.matchesAt_iff {t : Template} (ht : t.text.head? ≠ some (.scalar '^')) (before after : Text) :
    MatchesAt (matchPattern t.text) before after ↔
      before = [] ∧ ∃ u rest, after = u ++ rest ∧ t.IsInstance u ∧ (rest = [] ∨ rest = [.scalar '\n']) := by
  have hread := readAtoms_matchPattern ht t.splits
  constructor
  · rintro ⟨atoms, hatoms, h⟩
    cases hread.symm.trans hatoms
    obtain ⟨hbefore, h⟩ := h
    obtain ⟨u, rest, hafter, hu, hrest, -⟩ := (runs_pieces _ _ _ _).mp h
    exact ⟨hbefore, u, rest, hafter, (t.spells_pieces u).mp hu, hrest⟩
  · rintro ⟨hbefore, u, rest, hafter, hu, hrest⟩
    exact ⟨_, hread, hbefore, (runs_pieces _ _ _ _).mpr ⟨u, rest, hafter, (t.spells_pieces u).mpr hu, hrest, trivial⟩⟩

/-! ### Names of placeholders -/

/-- What is made of the pieces one by one: that of the literal pieces, with that of a placeholder between them. -/
theorem flatMap_piecesOf {β : Type} (f : Piece → List β) {sep : List β} (hsep : ∀ word, f (.hole word) = sep) (l : Text)
    (rest : List (Text × Text)) : (l.map Piece.char ++ piecesOf rest).flatMap f
      = sep.intercalate ((l :: rest.map Prod.snd).map fun l => l.flatMap fun c => f (.char c)) := by
  induction rest generalizing l with
  | nil => simp [piecesOf, flatMap_map]
  | cons p rest ih =>
    rw [map_cons, map_cons, map_cons, intercalate_cons_cons,
      ← map_cons (f := fun l : Text => l.flatMap fun c => f (.char c)), ← ih p.2, piecesOf_cons, flatMap_append,
      flatMap_cons, hsep, flatMap_map, append_assoc]

theorem Template.flatMap_pieces (t : Template) {β : Type} (f : Piece → List β) {sep : List β}
    (hsep : ∀ word, f (.hole word) = sep) :
    t.pieces.flatMap f = sep.intercalate (t.literals.map fun l => l.flatMap fun c => f (.char c)) :=
  flatMap_piecesOf f hsep t.first t.rest

theorem Template.splitOn_atoms (t : Template) :
    (t.pieces.map Piece.atom).splitOn .group = t.literals.map (List.map .char) := by
  have hgroup : ∀ word, [(Piece.hole word).atom] = [Atom.group] := fun _ => rfl
  have hatoms := t.flatMap_pieces (fun p => [p.atom]) hgroup
  simp only [← map_eq_flatMap] at hatoms
  rw [hatoms]
  refine splitOn_intercalate _ (fun l hl => ?_) (by simp [Template.literals])
  obtain ⟨s, -, rfl⟩ := mem_map.mp hl
  simp [Piece.atom]

/-- **Two match texts have the same regular expression** exactly if they have the same literal pieces. -/
theorem Template.matchPattern_eq_iff {t t' : Template} (ht : t.text.head? ≠ some (.scalar '^'))
    (ht' : t'.text.head? ≠ some (.scalar '^')) :
    matchPattern t.text = matchPattern t'.text ↔ t.literals = t'.literals := by
  constructor
  · intro h
    have hatoms : t.pieces.map Piece.atom = t'.pieces.map Piece.atom := by
      have hread := (readAtoms_matchPattern ht t.splits).symm.trans (h ▸ readAtoms_matchPattern ht' t'.splits)
      exact append_cancel_right (List.cons.inj (Option.some.inj hread)).2
    have hinj : Function.Injective (List.map (List.map Atom.char)) :=
      map_injective_iff.mpr (map_injective_iff.mpr fun _ _ h => Atom.char.inj h)
    refine hinj ?_
    rw [← t.splitOn_atoms, ← t'.splitOn_atoms, hatoms]
  · intro h
    rw [matchPattern_eq ht t.splits, matchPattern_eq ht' t'.splits, t.flatMap_pieces Piece.pattern (fun _ => rfl),
      t'.flatMap_pieces Piece.pattern (fun _ => rfl), h]

/-- **The messages of a match text** that is no regular expression itself, however it is cut at its placeholders: its
regular expression matches a message exactly if the message, or what stands before a line feed at its end, has one or
more characters of a line in the place of each placeholder. Another match text has the same regular expression exactly
if it differs in the names of the placeholders alone. -/
theorem matchPattern_accepts_iff {m : Text} (hm : m.head? ≠ some (.scalar '^')) :
    (∃ t : Template, t.text = m) ∧ ∀ t : Template, t.text = m →
      (∀ s, MatchesAt (matchPattern m) [] s ↔ t.IsInstance s ∨ ∃ u, s = u ++ [.scalar '\n'] ∧ t.IsInstance u) ∧
      (∀ before after, MatchesAt (matchPattern m) before after → before = []) ∧
      ∀ m' : Text, m'.head? ≠ some (.scalar '^') → ∀ t' : Template, t'.text = m' →
        (matchPattern m = matchPattern m' ↔ t.literals = t'.literals) := by
  refine ⟨exists_template m, ?_⟩
  rintro t rfl
  refine ⟨fun s => ?_, fun before after h => ((t.matchesAt_iff hm before after).mp h).1, ?_⟩
  · rw [t.matchesAt_iff hm, and_iff_right rfl]
    constructor
    · rintro ⟨u, rest, rfl, hu, rfl | rfl⟩
      · rw [List.append_nil]
        exact .inl hu
      · exact .inr ⟨u, rfl, hu⟩
    · rintro (hs | ⟨u, rfl, hu⟩)
      · exact ⟨s, [], (List.append_nil s).symm, hs, .inl rfl⟩
      · exact ⟨u, _, rfl, hu, .inr rfl⟩
  · rintro _ hm' t' rfl
    exact t.matchPattern_eq_iff hm hm'

def pairTemplate : Template where
  first := "/hi "
  rest := [("x", ""), ("y", ".")]
  names := by decide
  plain_first := by decide
  plain_rest := by decide

def doubleTemplate : Template where
  first := "/hi "
  rest := [("y", ""), ("y", ".")]
  names := by decide
  plain_first := by decide
  plain_rest := by decide

theorem pairTemplate_accepts :
    pairTemplate.text = "/hi \x7bx\x7d\x7by\x7d." ∧ pairTemplate.text.head? ≠ some (.scalar '^') ∧
      MatchesAt (matchPattern pairTemplate.text) [] "/hi you .\n" ∧
      ¬ MatchesAt (matchPattern pairTemplate.text) [] "/hi u." ∧
      doubleTemplate.text = "/hi \x7by\x7d\x7by\x7d." ∧
      matchPattern pairTemplate.text = matchPattern doubleTemplate.text := by
  have hm : pairTemplate.text.head? ≠ some (.scalar '^') := by decide
  obtain ⟨hmatch, -, hsame⟩ := (matchPattern_accepts_iff hm).2 _ rfl
  refine ⟨by decide, hm, ?_, ?_, by decide, (hsame _ (by decide) doubleTemplate rfl).mpr rfl⟩
  · exact (hmatch _).mpr (.inr ⟨"/hi you .", by decide, ["you", " "], rfl, by decide, by decide⟩)
  · -- two placeholders take at least two characters
    have hlong : ∀ u, pairTemplate.IsInstance u → 7 ≤ u.length := by
      rintro _ ⟨xs, hlength, hxs, rfl⟩
      obtain ⟨a, b, rfl⟩ := List.length_eq_two.mp hlength
      have ha := List.length_pos_iff.mpr (hxs a (by simp)).nonempty
      have hb := List.length_pos_iff.mpr (hxs b (by simp)).nonempty
      simp only [Template.filled, pairTemplate, List.zipWith_cons_cons, List.zipWith_nil_left, List.flatten_cons,
        List.flatten_nil, List.length_append]
      show 7 ≤ 4 + ((a.length + 0) + ((b.length + 1) + 0))
      omega
    intro h
    rcases (hmatch _).mp h with h | ⟨u, hu, h⟩
    · exact absurd (hlong _ h) (by decide)
    · have hlength : 6 = u.length + 1 := (congrArg List.length hu).trans List.length_append
      have := hlong u h
      omega

end PluginKit.Script
