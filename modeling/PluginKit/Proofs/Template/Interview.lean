import PluginKit.Proofs.Console.Dialogues
import PluginKit.Proofs.Template.Created

/-!
# Interviews

Before a plugin is created, somebody at a terminal is asked for what the order leaves open. The interview takes exactly the
lines that it needs: those up to the first one that names a template by its number, and one for each text that is missing.
Where nobody is asked it takes none. If the lines run out, the creation exits with the code zero
(`create_follows_interview`).
-/

namespace PluginKit.Template

open Console Files List

variable {w : Surroundings} {s s' : Session} {o : Order} {lines rest : List Text} {k : Kind}

/-! ### What is needed of the lines -/

def asks (w : Surroundings) (yes : Bool) : Bool := w.terminal && !yes

/-- A line names a template by its number on the menu. -/
def NamesKind (line : Text) (k : Kind) : Prop :=
  ∃ n : Int, Text.readInt 10 (Text.trim Text.isBlank line) = .number n ∧ 1 ≤ n ∧ n ≤ 6 ∧ Kind.all[n.toNat - 1]? = some k

/-- The first line that names a template names this one. -/
def Chosen (lines : List Text) (k : Kind) (rest : List Text) : Prop :=
  ∃ before line, lines = before ++ line :: rest ∧ (∀ l ∈ before, ∀ k, ¬ NamesKind l k) ∧ NamesKind line k

/-- The template is the given one; else it is chosen, or the smallest one if nobody is asked. -/
def Picked (asked : Bool) (given : Option Kind) (lines : List Text) (k : Kind) (rest : List Text) : Prop :=
  if given = none then if asked then Chosen lines k rest else k = .minimal ∧ rest = lines else given = some k ∧ rest = lines

/-- A text is the given one, unless it is empty; else it is typed on one line, or the default if that is blank or nobody is
asked. -/
def Told (asked : Bool) (given : Option Text) (default : Text) (lines : List Text) (text : Text) (rest : List Text) : Prop :=
  if given.getD [] = [] then
    if asked then ∃ line, lines = line :: rest ∧
      text = if (Text.trim Text.isBlank line).isEmpty then default else Text.trim Text.isBlank line
    else text = default ∧ rest = lines
  else given = some text ∧ rest = lines

/-- The whole interview: the template first, then author, description and version. -/
def Order.Interview (o : Order) (w : Surroundings) (lines : List Text) (k : Kind) (f : Facts) (rest : List Text) : Prop :=
  ∃ l₁, Picked (asks w o.yes) o.kind lines k l₁ ∧
  ∃ author l₂, Told (asks w o.yes) o.author "未知作者" l₁ author l₂ ∧
  ∃ description l₃, Told (asks w o.yes) o.description ("一个使用 " ++ k.key ++ " 模板创建的麦麦插件") l₂ description l₃ ∧
  ∃ version, Told (asks w o.yes) o.version "1.0.0" l₃ version rest ∧ f = ⟨o.name, description, version, author, w.year⟩

/-- Where nobody is asked, there is an interview that takes no lines. -/
theorem Order.exists_interview (hquiet : asks w o.yes = false) (lines : List Text) :
    ∃ k f, o.Interview w lines k f lines := by
  have hpicked (given : Option Kind) : ∃ k, Picked false given lines k lines := by
    cases given with
    | none => exact ⟨_, rfl, rfl⟩
    | some k => exact ⟨k, rfl, rfl⟩
  have htold (given : Option Text) (default : Text) : ∃ text, Told false given default lines text lines := by
    unfold Told
    split
    · exact ⟨_, rfl, rfl⟩
    · next hpresent =>
      cases given with
      | none => exact absurd rfl hpresent
      | some text => exact ⟨text, rfl, rfl⟩
  obtain ⟨k, hkind⟩ := hpicked o.kind
  obtain ⟨author, hauthor⟩ := htold o.author "未知作者"
  obtain ⟨description, hdescription⟩ := htold o.description ("一个使用 " ++ k.key ++ " 模板创建的麦麦插件")
  obtain ⟨version, hversion⟩ := htold o.version "1.0.0"
  rw [← hquiet] at hkind hauthor hdescription hversion
  exact ⟨k, _, _, hkind, _, _, hauthor, _, _, hdescription, _, hversion, rfl⟩

/-! ### Questions -/

theorem completes_silent (yes : Bool) : Completes (silent yes) w s (!asks w yes) s := by
  refine Completes.bind (completes_read_iff.mpr ⟨rfl, rfl⟩) ?_
  rw [asks, Bool.not_and, Bool.not_not, Bool.or_comm]
  rfl

theorem learns_silent (yes : Bool) (lines : List Text) : Learns (silent yes) w lines (!asks w yes) lines :=
  learns_of_completes (fun _ => completes_silent yes) lines

section
variable {question default : Text} (hq : Encodable question)
include hq

theorem learns_askLine (line : Text) (rest : List Text) :
    Learns (askLine question) w (line :: rest) (Text.trim Text.isBlank line) rest :=
  (learns_print hq _).bind ((learns_nextLine? line rest).bind (learns_pure _ _))

variable (hends : w.inputEnds = true)
include hends

theorem givesUp_askLine : GivesUp (askLine question) w [] :=
  (learns_print hq _).bind_givesUp ((learns_nextLine?_nil hends).bind_givesUp
    ((learns_say (encodable_ofString _) _).bind_givesUp givesUp_exit))

theorem conducts_askLine : Conducts (askLine question) w fun lines answer rest =>
    ∃ line, lines = line :: rest ∧ answer = Text.trim Text.isBlank line where
  learns := by
    rintro _ _ rest ⟨line, rfl, rfl⟩
    exact learns_askLine hq line rest
  givesUp := by
    intro lines hnone
    cases lines with
    | cons line rest => exact absurd ⟨line, rfl, rfl⟩ (hnone _ rest)
    | nil => exact givesUp_askLine hq hends

theorem conducts_givenOr (hd : Encodable default) (given : Option Text) (yes : Bool) :
    Conducts (givenOr given question default yes) w (Told (asks w yes) given default) := by
  have hask : Conducts (askText question default yes) w fun lines text rest => if asks w yes then ∃ line,
      lines = line :: rest ∧ text = if (Text.trim Text.isBlank line).isEmpty then default else Text.trim Text.isBlank line
      else text = default ∧ rest = lines := by
    refine .after (learns_silent yes) ?_
    cases asks w yes with
    | false => exact conducts_pure default
    | true =>
      have hquestion : Encodable (question ++ " [" ++ default ++ "]: ") :=
        ((hq.append (encodable_ofString _)).append hd).append (encodable_ofString _)
      refine ((conducts_askLine hquestion hends).bind fun _ => conducts_pure _).congr fun lines text rest => ⟨?_, ?_⟩
      · rintro ⟨line, rfl, rfl⟩
        exact ⟨_, rest, ⟨line, rfl, rfl⟩, rfl, rfl⟩
      · rintro ⟨_, _, ⟨line, rfl, rfl⟩, rfl, rfl⟩
        exact ⟨line, rfl, rfl⟩
  unfold Told givenOr
  cases given with
  | none => exact hask
  | some text =>
    cases text with
    | nil => exact hask
    | cons c text =>
      refine (conducts_pure (c :: text)).congr fun lines told rest => ?_
      rw [if_neg (show (some (c :: text)).getD [] ≠ [] from cons_ne_nil c text), Option.some.injEq, eq_comm]

end

/-! ### The menu -/

theorem ofNumber?_eq_some_iff {n : Int} :
    Kind.ofNumber? n = some k ↔ 1 ≤ n ∧ n ≤ 6 ∧ Kind.all[n.toNat - 1]? = some k := by
  unfold Kind.ofNumber?
  split
  · next hsmall => exact iff_of_false (fun h => by cases h) fun h => absurd hsmall (Int.not_lt.mpr h.1)
  · next hlarge =>
    refine ⟨fun h => ⟨Int.not_lt.mp hlarge, ?_, h⟩, fun h => h.2.2⟩
    obtain ⟨hlt, -⟩ := List.getElem?_eq_some_iff.mp h
    have hlength : Kind.all.length = 6 := rfl
    omega

theorem choice_eq_ok_iff {line : Text} : choice (Text.trim Text.isBlank line) = .ok k ↔ NamesKind line k := by
  unfold choice NamesKind
  simp only [← ofNumber?_eq_some_iff]
  split
  · next n hread =>
    rw [hread]
    simp only [Text.IntReading.number.injEq, exists_eq_left']
    cases Kind.ofNumber? n with
    | none => exact iff_of_false (fun h => by cases h) (fun h => by cases h)
    | some found => simp only [Except.ok.injEq, Option.some.injEq]
  · next hread =>
    refine iff_of_false (fun h => by cases h) ?_
    rintro ⟨n, hn, -⟩
    exact hread n hn

theorem encodable_objection {answer objection : Text} (h : choice answer = .error objection) : Encodable objection := by
  unfold choice at h
  split at h
  · split at h
    · cases h
    · cases h
      exact encodable_ofString _
  · cases h
    exact encodable_ofString _

theorem not_namesKind_of_error {line objection : Text} (h : choice (Text.trim Text.isBlank line) = .error objection)
    (k : Kind) : ¬ NamesKind line k := by
  rw [← choice_eq_ok_iff, h]
  exact fun hok => by cases hok

theorem not_chosen_nil : ¬ Chosen [] k rest := by
  rintro ⟨before, line, hlines, -⟩
  exact absurd hlines.symm (append_ne_nil_of_right_ne_nil _ (cons_ne_nil _ _))

theorem chosen_cons_iff {line : Text} :
    Chosen (line :: lines) k rest ↔ NamesKind line k ∧ rest = lines ∨ (∀ k, ¬ NamesKind line k) ∧ Chosen lines k rest := by
  constructor
  · rintro ⟨before, last, hlines, hbefore, hlast⟩
    cases before with
    | nil =>
      obtain ⟨rfl, rfl⟩ := List.cons.inj hlines
      exact .inl ⟨hlast, rfl⟩
    | cons first before =>
      obtain ⟨rfl, rfl⟩ := List.cons.inj hlines
      obtain ⟨hfirst, hbefore⟩ := forall_mem_cons.mp hbefore
      exact .inr ⟨hfirst, before, last, rfl, hbefore, hlast⟩
  · rintro (⟨hline, rfl⟩ | ⟨hline, before, last, rfl, hbefore, hlast⟩)
    · exact ⟨[], line, rfl, fun _ hl => absurd hl not_mem_nil, hline⟩
    · exact ⟨line :: before, last, rfl, forall_mem_cons.mpr ⟨hline, hbefore⟩, hlast⟩

theorem encodable_numberQuestion : Encodable (s!"请输入序号 (1-{Kind.all.length}): " : Text) := encodable_ofString _

theorem learns_chooseFrom (h : Chosen lines k rest) : Learns (chooseFrom lines.length) w lines k rest := by
  induction lines with
  | nil => exact absurd h not_chosen_nil
  | cons line lines ih =>
    refine (learns_askLine encodable_numberQuestion line lines).bind ?_
    rcases chosen_cons_iff.mp h with ⟨hline, rfl⟩ | ⟨hline, hlater⟩
    · rw [choice_eq_ok_iff.mpr hline]
      exact learns_pure k rest
    · cases hchoice : choice (Text.trim Text.isBlank line) with
      | ok found => exact absurd (choice_eq_ok_iff.mp hchoice) (hline found)
      | error objection => exact (learns_say (encodable_objection hchoice) lines).bind (ih hlater)

theorem givesUp_chooseFrom (hends : w.inputEnds = true) (h : ∀ k rest, ¬ Chosen lines k rest) :
    GivesUp (chooseFrom lines.length) w lines := by
  induction lines with
  | nil => exact (givesUp_askLine encodable_numberQuestion hends).bind
  | cons line lines ih =>
    refine (learns_askLine encodable_numberQuestion line lines).bind_givesUp ?_
    cases hchoice : choice (Text.trim Text.isBlank line) with
    | ok found => exact absurd (chosen_cons_iff.mpr (.inl ⟨choice_eq_ok_iff.mp hchoice, rfl⟩)) (h found lines)
    | error objection =>
      refine (learns_say (encodable_objection hchoice) lines).bind_givesUp (ih fun k rest hlater => ?_)
      exact h k rest (chosen_cons_iff.mpr (.inr ⟨not_namesKind_of_error hchoice, hlater⟩))

theorem Kind.encodable_key (k : Kind) : Encodable k.key := by
  cases k
  all_goals exact encodable_ofString _

theorem encodable_menuLines : ∀ line ∈ menuLines, Encodable line := by
  refine forall_mem_cons.mpr ⟨encodable_ofString _, fun line hline => ?_⟩
  obtain ⟨offer, hoffer, hmem⟩ := mem_flatten.mp hline
  obtain ⟨i, hi, rfl⟩ := mem_mapIdx.mp hoffer
  have hsummary (k : Kind) : Encodable k.summary := by
    cases k
    all_goals exact encodable_ofString _
  have hskill (k : Kind) : Encodable k.skill := by
    cases k
    all_goals exact encodable_ofString _
  have hlines : ∀ line ∈ offerLines (i + 1) Kind.all[i], Encodable line := by
    simp [offerLines, Kind.encodable_title, hsummary, hskill]
  exact hlines line hmem

/-- **The choice from the menu** takes the lines up to the first one that names a template. -/
theorem conducts_choose (hends : w.inputEnds = true) : Conducts choose w Chosen where
  learns h := by
    refine (learns_sayAll encodable_menuLines _).bind ?_
    rintro s rfl
    exact learns_chooseFrom h s rfl
  givesUp h := by
    refine (learns_sayAll encodable_menuLines _).bind_givesUp ?_
    rintro s rfl
    exact givesUp_chooseFrom hends h s rfl

theorem conducts_pickKind (hends : w.inputEnds = true) (o : Order) :
    Conducts (pickKind o) w (Picked (asks w o.yes) o.kind) := by
  unfold pickKind Picked
  cases o.kind with
  | some k =>
    refine (conducts_pure k).congr fun lines picked rest => ?_
    rw [if_neg (Option.some_ne_none k), Option.some.injEq, eq_comm]
  | none =>
    refine .after (learns_silent o.yes) ?_
    cases asks w o.yes with
    | false => exact .after (learns_say (encodable_ofString _)) (conducts_pure Kind.minimal)
    | true => exact conducts_choose hends

/-! ### The interview -/

def interview (o : Order) : SessionM (Kind × Facts) := do
  let k ← pickKind o
  Session.say ("\n✅ 已选择模板：" ++ k.title)
  invite o.yes
  let f ← askFacts o k
  return (k, f)

theorem create_eq_interview (hname : Script.isPluginName o.name = true) :
    create o = interview o >>= fun known => makeRoom o >>= fun _ => install known.1 known.2 o.directory := by
  simp only [create, if_pos hname, interview, bind_assoc, pure_bind]

theorem learns_invite (yes : Bool) (lines : List Text) : Learns (invite yes) w lines () lines := by
  unfold invite
  split
  · exact learns_pure _ lines
  · exact learns_say (encodable_ofString _) lines

/-- **The talk is the interview**: it takes exactly the lines that the interview needs. -/
theorem conducts_interview (hends : w.inputEnds = true) (o : Order) :
    Conducts (interview o) w fun lines known rest => o.Interview w lines known.1 known.2 rest := by
  have htitle (k : Kind) : Encodable ("\n✅ 已选择模板：" ++ k.title) := (encodable_ofString _).append k.encodable_title
  have hdescription (k : Kind) : Encodable ("一个使用 " ++ k.key ++ " 模板创建的麦麦插件") :=
    ((encodable_ofString _).append k.encodable_key).append (encodable_ofString _)
  have hfacts (k : Kind) : Conducts (askFacts o k) w _ :=
    (conducts_givenOr (encodable_ofString _) hends (encodable_ofString "未知作者") o.author o.yes).bind fun _ =>
      (conducts_givenOr (encodable_ofString _) hends (hdescription k) o.description o.yes).bind fun _ =>
        (conducts_givenOr (encodable_ofString _) hends (encodable_ofString "1.0.0") o.version o.yes).bind fun _ =>
          .after learns_read (conducts_pure _)
  refine ((conducts_pickKind hends o).bind fun k => .after (learns_say (htitle k)) (.after (learns_invite o.yes)
    ((hfacts k).bind fun f => conducts_pure (k, f)))).congr fun lines known rest => ⟨?_, ?_⟩
  · obtain ⟨k, f⟩ := known
    rintro ⟨l₁, hkind, author, l₂, hauthor, description, l₃, htold, version, hversion, rfl⟩
    exact ⟨k, l₁, hkind, _, _, ⟨_, _, hauthor, _, _, htold, _, _, hversion, rfl, rfl⟩, rfl, rfl⟩
  · rintro ⟨k, l₁, hkind, _, _, ⟨author, l₂, hauthor, description, l₃, htold, version, _, hversion, rfl, rfl⟩, rfl, rfl⟩
    exact ⟨l₁, hkind, author, l₂, hauthor, description, l₃, htold, version, hversion, rfl⟩

/-! ### After the interview -/

theorem ends_fault (f : Fault) : (Stop.fault f).Ends := fun h => by cases h

theorem steady_install (k : Kind) (f : Facts) (directory : Path) : Steady Stop.Ends (install k f directory) := by
  refine steady_read.bind fun w => ((steady_exists? _).of_isPlain ends_fault).bind fun there => ?_
  split
  · exact steady_make ends_fault _ k f directory
  · exact ((steady_print _).of_isPlain ends_fault).bind fun _ => steady_exit (fun h => by cases h)

theorem ran_askLine {question : Text} {r : Except Stop Text} (hends : w.inputEnds = true)
    (h : Ran (askLine question) w s r s') :
    r ≠ .error .waiting ∧ (s'.lines = s.lines ∨ s'.lines = s.lines.drop 1) := by
  by_cases hq : Encodable question
  · cases hlines : s.lines with
    | nil =>
      obtain ⟨said, hgives⟩ := givesUp_askLine hq hends s hlines
      obtain ⟨rfl, rfl⟩ := h.unique hgives
      exact ⟨fun hwaiting => (by cases hwaiting), .inl rfl⟩
    | cons line rest =>
      obtain ⟨said, hlearns⟩ := learns_askLine hq line rest s hlines
      obtain ⟨rfl, rfl⟩ := h.unique hlearns
      exact ⟨fun hwaiting => (by cases hwaiting), .inr rfl⟩
  · obtain ⟨f, hfault⟩ := ran_print_of_not_encodable hq
    obtain ⟨rfl, rfl⟩ := h.unique hfault.bind_error
    exact ⟨fun hwaiting => (by cases hwaiting), .inl rfl⟩

theorem ran_confirm {question : Text} {yes : Bool} {r : Except Stop Bool} (hends : w.inputEnds = true)
    (h : Ran (confirm question yes) w s r s') :
    r ≠ .error .waiting ∧ (s'.lines = s.lines ∨ asks w yes = true ∧ s'.lines = s.lines.drop 1) := by
  have hrest := (completes_silent yes).ran_of_bind h
  cases hasks : asks w yes with
  | false =>
    rw [hasks] at hrest
    obtain ⟨hwaiting, hlines⟩ := (steady_pure false).ran hrest
    exact ⟨hwaiting, .inl hlines⟩
  | true =>
    rw [hasks, Bool.not_true, if_neg Bool.false_ne_true] at hrest
    obtain ⟨hwaiting, hlines⟩ := ran_bind_deaf (P := fun lines => lines = s.lines ∨ lines = s.lines.drop 1)
      (fun _ _ => ran_askLine hends) (fun _ => steady_pure _) hrest
    exact ⟨hwaiting, hlines.imp_right fun hdrop => ⟨rfl, hdrop⟩⟩

/-- What is in the way of the plugin costs one line, if somebody is asked about it. -/
theorem ran_makeRoom_lines {r : Except Stop Unit} (hends : w.inputEnds = true) (h : Ran (makeRoom o) w s r s') :
    r ≠ .error .waiting ∧
      (s'.lines = s.lines ∨ asks w o.yes = true ∧ Occupied w s.tree o.directory ∧ s'.lines = s.lines.drop 1) := by
  rcases ran_bind h with ⟨there, s₁, hthere, hrest⟩ | ⟨stop, rfl, hthere⟩
  · obtain ⟨hoccupied, rfl⟩ := completes_exists? hthere
    split at hrest
    · next hyes =>
      have hlast : ∀ confirmed : Bool, Steady Stop.Ends (if confirmed = true then Session.removeTree o.directory else do
          Session.say "已取消。"
          Session.exit 0) := by
        intro confirmed
        split
        · exact (steady_removeTree _).of_isPlain ends_fault
        · exact ((steady_print _).of_isPlain ends_fault).bind fun _ => steady_exit (fun h => by cases h)
      obtain ⟨hwaiting, hlines⟩ := ran_bind_deaf
        (P := fun lines => lines = s₁.lines ∨ asks w o.yes = true ∧ lines = s₁.lines.drop 1)
        (fun _ _ => ran_confirm hends) hlast hrest
      exact ⟨hwaiting, hlines.imp_right fun hread => ⟨hread.1, hoccupied.mp hyes, hread.2⟩⟩
    · obtain ⟨hwaiting, hlines⟩ := (steady_pure ()).ran hrest
      exact ⟨hwaiting, .inl hlines⟩
  · obtain ⟨hwaiting, hlines⟩ := ((steady_exists? _).of_isPlain ends_fault).ran hthere
    exact ⟨fun h => hwaiting (by rw [Except.error.inj h]), .inl hlines⟩

/-- **A creation reads exactly what it needs.** It goes on with what the interview tells, on the lines that the interview
leaves; if they do not suffice for an interview, it has read them all and exits with the code zero. Whatever was in the way
of the plugin costs one line more. Nothing is read where nobody is asked, and the creation always ends. -/
theorem create_follows_interview {arguments : List Text} {r : Reading} (hr : request arguments = .command .create r)
    (hname : Script.isPluginName (orderOf r).name = true) (hends : w.inputEnds = true) (s : Session) :
    ∃ result s', Ran (runArguments arguments) w s result s' ∧ result ≠ .error .waiting ∧
      (asks w (orderOf r).yes = false → s'.lines = s.lines) ∧
      (∀ k f rest, (orderOf r).Interview w s.lines k f rest →
        (∃ said, Ran (makeRoom (orderOf r) >>= fun _ => install k f (orderOf r).directory) w (s.told said rest) result s') ∧
        (s'.lines = rest ∨ asks w (orderOf r).yes = true ∧ Occupied w s.tree (orderOf r).directory ∧
          s'.lines = rest.drop 1)) ∧
      ((∀ k f rest, ¬ (orderOf r).Interview w s.lines k f rest) → result = .error (.exit 0) ∧ s'.lines = []) := by
  obtain ⟨banner, hbanner⟩ := learns_sayAll encodable_bannerLines s.lines s rfl
  obtain ⟨result, s', hcreate⟩ := exists_ran (create (orderOf r)) w (s.told banner s.lines)
  have hran : Ran (runArguments arguments) w s result s' := by
    refine Completes.bind hbanner ?_
    rw [hr]
    exact hcreate
  rw [create_eq_interview hname] at hcreate
  have hconducts := conducts_interview hends (orderOf r)
  have hlearnt : ∀ k f rest, (orderOf r).Interview w s.lines k f rest → ∃ said,
      Ran (makeRoom (orderOf r) >>= fun _ => install k f (orderOf r).directory) w (s.told said rest) result s' := by
    intro k f rest hinterview
    obtain ⟨said, hlearns⟩ := hconducts.learns (a := (k, f)) hinterview (s.told banner s.lines) rfl
    rw [Session.told_told] at hlearns
    exact ⟨banner ++ said, hlearns.ran_of_bind hcreate⟩
  have hread : ∀ k f rest, (orderOf r).Interview w s.lines k f rest → result ≠ .error .waiting ∧
      (s'.lines = rest ∨ asks w (orderOf r).yes = true ∧ Occupied w s.tree (orderOf r).directory ∧
        s'.lines = rest.drop 1) := by
    intro k f rest hinterview
    obtain ⟨said, hrest⟩ := hlearnt k f rest hinterview
    refine ran_bind_deaf (P := fun lines => lines = rest ∨ asks w (orderOf r).yes = true ∧
      Occupied w s.tree (orderOf r).directory ∧ lines = rest.drop 1) ?_ (fun _ => steady_install k f _) hrest
    exact fun _ _ => ran_makeRoom_lines hends
  have hgivesUp : (∀ k f rest, ¬ (orderOf r).Interview w s.lines k f rest) → result = .error (.exit 0) ∧ s'.lines = [] := by
    intro hnone
    obtain ⟨said, hgives⟩ := hconducts.givesUp (fun known rest => hnone known.1 known.2 rest) (s.told banner s.lines) rfl
    obtain ⟨rfl, rfl⟩ := hcreate.unique hgives.bind_error
    exact ⟨rfl, rfl⟩
  refine ⟨result, s', hran, ?_, ?_, fun k f rest h => ⟨hlearnt k f rest h, (hread k f rest h).2⟩, hgivesUp⟩
  · by_cases hsome : ∃ k f rest, (orderOf r).Interview w s.lines k f rest
    · obtain ⟨k, f, rest, hinterview⟩ := hsome
      exact (hread k f rest hinterview).1
    · rw [(hgivesUp fun k f rest h => hsome ⟨k, f, rest, h⟩).1]
      exact fun hwaiting => by cases hwaiting
  · intro hquiet
    obtain ⟨k, f, hinterview⟩ := Order.exists_interview hquiet s.lines
    rcases (hread k f _ hinterview).2 with hsame | ⟨hasked, -⟩
    · exact hsame
    · rw [hquiet] at hasked
      cases hasked

/-- An order for which template, description and version have to be asked. -/
def halfOrder : Order := ⟨"p", none, ".", some "A", none, none, false⟩

def halfArguments : List Text := ["create", "p", "--author", "A"]

/-- Two lines that name no template, one that does, a blank one for the description and one for the version. -/
def halfAnswers : List Text := ["x", "7", " 2 ", " ", "3.0", "more"]

theorem halfArguments_follow_interview : ∃ r, request halfArguments = .command .create r ∧
    Script.isPluginName (orderOf r).name = true ∧ (bareMachine true).inputEnds = true ∧
    ∃ result s', Ran (runArguments halfArguments) (bareMachine true) (.start .empty halfAnswers) result s' ∧
      result ≠ .error .waiting ∧ s'.lines = ["more"] := by
  have hrequest : ∃ r, request halfArguments = .command .create r ∧ orderOf r = halfOrder := ⟨_, rfl, rfl⟩
  obtain ⟨r, hr, horder⟩ := hrequest
  have hname : Script.isPluginName (orderOf r).name = true := by
    rw [horder]
    decide
  have hbefore : ∀ l ∈ (["x", "7"] : List Text), ∀ k, ¬ NamesKind l k :=
    List.forall_mem_cons.mpr ⟨not_namesKind_of_error rfl, List.forall_mem_singleton.mpr (not_namesKind_of_error rfl)⟩
  have hinterview : halfOrder.Interview (bareMachine true) halfAnswers .action _ ["more"] :=
    ⟨_, ⟨["x", "7"], " 2 ", rfl, hbefore, choice_eq_ok_iff.mp rfl⟩, _, _, ⟨rfl, rfl⟩, _, _, ⟨" ", rfl, rfl⟩, _,
      ⟨"3.0", rfl, rfl⟩, rfl⟩
  have hvacant : ¬ Occupied (bareMachine true) .empty halfOrder.directory := by
    rintro ⟨place, e, hplace, hfind⟩
    cases hplace
    cases hfind
  have hends : (bareMachine true).inputEnds = true := rfl
  obtain ⟨result, s', hran, hwaiting, -, hlearnt, -⟩ :=
    create_follows_interview hr hname hends (.start .empty halfAnswers)
  rw [horder] at hlearnt
  refine ⟨r, hr, hname, rfl, result, s', hran, hwaiting, ?_⟩
  exact (hlearnt _ _ _ hinterview).2.resolve_right fun hread => hvacant hread.2.1

/-- A separator before a number is no part of the answer, although it is no part of a number either. -/
theorem separator_chosen : Text.readInt 10 "\x1c1" = .invalid ∧
    ∃ s', Completes (pickKind halfOrder) (bareMachine true) (.start .empty ["\x1c1", "2"]) .minimal s' ∧ s'.lines = ["2"] := by
  have hends : (bareMachine true).inputEnds = true := rfl
  have hpicked : Picked true none ["\x1c1", "2"] .minimal ["2"] :=
    ⟨[], "\x1c1", rfl, fun _ hl => absurd hl List.not_mem_nil, choice_eq_ok_iff.mp rfl⟩
  obtain ⟨said, hpick⟩ := (conducts_pickKind hends halfOrder).learns hpicked (.start .empty ["\x1c1", "2"]) rfl
  exact ⟨rfl, _, hpick, rfl⟩

end PluginKit.Template
