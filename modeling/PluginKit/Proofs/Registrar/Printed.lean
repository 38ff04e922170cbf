import PluginKit.Proofs.Decimal.Written
import PluginKit.Proofs.Json.Nested
import PluginKit.Proofs.Value.Entries
import PluginKit.Registrar.Json

/-!
# Reading back what a plugin file prints

The JSON text of a datum is one value for the reader, unless its collections stand inside each other too
deeply (`Datum.json?_readsTo`). So the answer of an execution reads back with its success and its messages
exactly when its log is not too deep (`Answer.read_print`, `Answer.read_print_deep`).
-/

namespace PluginKit.Registrar

open Json (ReadsTo EntryReadsTo joinHalves isOk_map isOk_collection)

/-! ### Texts -/

theorem escaping_escapePoint : Json.Escaping escapePoint where
  half := fun c hc => if_pos hc
  reads := by
    intro c hc start fuel off t ht
    rw [show escapePoint c = Json.escapeChar false c from if_neg (by rw [hc]; exact Bool.false_ne_true)]
    exact Json.readText_escapeChar false hc start fuel off ht
  notLow := by
    intro c hc t
    rw [show escapePoint c = Json.escapeChar false c from if_neg (by rw [hc]; exact Bool.false_ne_true)]
    exact Json.lowHalf_escapeChar false hc t

theorem quotedPoints_eq (s : Text) : quotedPoints s = Json.quotedBy escapePoint s := by
  simp [quotedPoints, Json.quotedBy, Text.ofString]

theorem quotedReads_points (s : Text) : Json.QuotedReads (quotedPoints s) (joinHalves s) := by
  rw [quotedPoints_eq]
  exact escaping_escapePoint.quotedReads s

theorem fieldText_eq (key s : Text) :
    quotedPoints key ++ (":" : Text) ++ s = quotedPoints key ++ .scalar ':' :: ([] ++ s) := by
  simp [Text.ofString]

/-! ### Depth -/

mutual

/-- The number of collections that stand inside each other in the JSON text of a datum. -/
def Datum.jsonDepth : Datum → Nat
  | .array items => 1 + Datum.itemsDepth items
  | .object fields => 1 + if (Datum.object fields).convertsItself then 0 else Datum.fieldsDepth fields
  | .derived fields parent =>
    1 + if (Datum.derived fields parent).convertsItself then 0 else Datum.fieldsDepth fields
  | .regex _ _ => 1
  | _ => 0

def Datum.itemsDepth : List Datum → Nat
  | [] => 0
  | d :: rest => max (Datum.jsonDepth d) (Datum.itemsDepth rest)

def Datum.fieldsDepth : List (Text × Datum) → Nat
  | [] => 0
  | (_, d) :: rest => max (Datum.jsonDepth d) (Datum.fieldsDepth rest)

end

theorem Datum.jsonDepth_of_json?_none {d : Datum} (h : d.json? = none) : d.jsonDepth = 0 := by
  cases d with
  | undefined => rw [jsonDepth] <;> simp
  | handler _ => rw [jsonDepth] <;> simp
  | method => rw [jsonDepth] <;> simp
  | bool b => cases b <;> simp [json?] at h
  | object fields =>
    rw [json?] at h
    split at h <;> cases h
  | derived fields parent =>
    rw [json?] at h
    split at h <;> cases h
  | _ => simp [json?] at h

section
variable {limits : Json.Limits}

/-- The text of one value, which is read exactly if its depth can be reached. -/
def ReadsWithin (limits : Json.Limits) (level : Nat) (s : Text) (depth : Nat) : Prop :=
  ∃ r, ReadsTo limits level s r ∧ (r.isOk = true ↔ depth = 0 ∨ level + depth ≤ limits.depth)

theorem readsWithin_of_ok {level : Nat} {s : Text} {v : Value} (h : ReadsTo limits level s (.ok v)) :
    ReadsWithin limits level s 0 :=
  ⟨_, h, iff_of_true rfl (.inl rfl)⟩

theorem readsWithin_word {level : Nat} {w : Text} {v : Value} (hw : (w, v) ∈ Json.words) :
    ReadsWithin limits level w 0 :=
  readsWithin_of_ok (Json.readsTo_word hw)

theorem readsWithin_null (level : Nat) : ReadsWithin limits level "null" 0 :=
  readsWithin_word (v := .null) (by simp [Json.words])

theorem readsWithin_number (level : Nat) {x : Float} (hx : (Decimal.Binary64.ofFloat x).isFinite = true)
    (hd : 21 ≤ limits.digits) : ReadsWithin limits level (numberText x) 0 := by
  obtain ⟨n, hn, htext, hwhole⟩ := Decimal.write_eq_text numberStyle hx
  rw [numberText, htext]
  exact readsWithin_of_ok (Json.readsTo_number hn fun h => (hwhole h).trans hd)

theorem entryReadsTo_field {level : Nat} (key : Text) {s : Text} {r : Except String Value}
    (h : ReadsTo limits level s r) :
    EntryReadsTo [] limits level (quotedPoints key ++ ":" ++ s) (r.map fun v => (.str (joinHalves key), v)) :=
  ⟨quotedPoints key, joinHalves key, s, r, fieldText_eq key s, quotedReads_points key, h, rfl⟩

theorem readsWithin_object {level depth : Nat} {texts : List Text} {rs : List (Except String (Value × Value))}
    (h : List.Forall₂ (EntryReadsTo [] limits (level + 1)) texts rs)
    (hok : (∀ r ∈ rs, r.isOk = true) ↔ depth = 0 ∨ level + 1 + depth ≤ limits.depth) :
    ReadsWithin limits level ("\x7b" ++ Text.join "," texts ++ "\x7d") (1 + depth) :=
  ⟨_, Json.readsTo_compactObject h, isOk_collection _ _ hok⟩

theorem readsWithin_braces (level : Nat) : ReadsWithin limits level "\x7b\x7d" 1 := by
  show ReadsWithin limits level ("\x7b" ++ Text.join "," [] ++ "\x7d") (1 + 0)
  exact readsWithin_object .nil (by simp)

mutual

/-- **The JSON text of a datum is one value**, unless it is too deep. -/
theorem Datum.readsWithin_json? (hd : 21 ≤ limits.digits) : ∀ (d : Datum) (s : Text) (level : Nat),
    d.json? = some s → ReadsWithin limits level s d.jsonDepth
  | .undefined, s, level, h => by simp [json?] at h
  | .null, s, level, h => by
    cases h
    exact readsWithin_null level
  | .bool true, s, level, h => by
    cases h
    exact readsWithin_word (v := .bool true) (by simp [Json.words])
  | .bool false, s, level, h => by
    cases h
    exact readsWithin_word (v := .bool false) (by simp [Json.words])
  | .number x, s, level, h => by
    cases h
    split
    · next hx => exact readsWithin_number level hx hd
    · exact readsWithin_null level
  | .text t, s, level, h => by
    cases h
    exact readsWithin_of_ok (Json.readsTo_text (quotedReads_points t))
  | .array items, s, level, h => by
    rw [json?] at h
    cases h
    obtain ⟨rs, hrs, hok⟩ := Datum.readsWithin_itemTexts hd items (level + 1)
    rw [jsonDepth]
    exact ⟨_, Json.readsTo_compactList hrs, isOk_collection _ _ hok⟩
  | .object fields, s, level, h => by
    rw [json?] at h
    rw [jsonDepth]
    split at h
    · next hc =>
      cases h
      rw [if_pos hc]
      exact readsWithin_braces level
    · next hc =>
      cases h
      rw [if_neg hc]
      obtain ⟨rs, hrs, hok⟩ := Datum.readsWithin_fieldTexts hd fields (level + 1)
      exact readsWithin_object hrs hok
  | .derived fields parent, s, level, h => by
    rw [json?] at h
    rw [jsonDepth]
    split at h
    · next hc =>
      cases h
      rw [if_pos hc]
      exact readsWithin_braces level
    · next hc =>
      cases h
      rw [if_neg hc]
      obtain ⟨rs, hrs, hok⟩ := Datum.readsWithin_fieldTexts hd fields (level + 1)
      exact readsWithin_object hrs hok
  | .regex _ _, s, level, h => by
    cases h
    exact readsWithin_braces level
  | .handler _, s, level, h => by simp [json?] at h
  | .method, s, level, h => by simp [json?] at h

theorem Datum.readsWithin_itemTexts (hd : 21 ≤ limits.digits) : ∀ (items : List Datum) (level : Nat),
    ∃ rs, List.Forall₂ (ReadsTo limits level) (itemTexts items) rs ∧
      ((∀ r ∈ rs, r.isOk = true) ↔ itemsDepth items = 0 ∨ level + itemsDepth items ≤ limits.depth)
  | [], level => ⟨[], .nil, by simp [itemsDepth]⟩
  | d :: rest, level => by
    obtain ⟨rs, hrs, hok⟩ := Datum.readsWithin_itemTexts hd rest level
    have hfirst : ReadsWithin limits level (d.json?.getD "null") d.jsonDepth := by
      cases hj : d.json? with
      | some s => exact Datum.readsWithin_json? hd d s level hj
      | none =>
        rw [Datum.jsonDepth_of_json?_none hj]
        exact readsWithin_null level
    obtain ⟨r, hr, hrok⟩ := hfirst
    refine ⟨r :: rs, .cons hr hrs, ?_⟩
    rw [List.forall_mem_cons, hrok, hok, itemsDepth]
    omega

theorem Datum.readsWithin_fieldTexts (hd : 21 ≤ limits.digits) :
    ∀ (fields : List (Text × Datum)) (level : Nat),
      ∃ rs, List.Forall₂ (EntryReadsTo [] limits level) (fieldTexts fields) rs ∧
        ((∀ r ∈ rs, r.isOk = true) ↔ fieldsDepth fields = 0 ∨ level + fieldsDepth fields ≤ limits.depth)
  | [], level => ⟨[], .nil, by simp [fieldsDepth]⟩
  | (key, d) :: rest, level => by
    obtain ⟨rs, hrs, hok⟩ := Datum.readsWithin_fieldTexts hd rest level
    cases hj : d.json? with
    | none =>
      refine ⟨rs, ?_, ?_⟩
      · rw [fieldTexts, hj]
        exact hrs
      · rw [hok, fieldsDepth, Datum.jsonDepth_of_json?_none hj, Nat.zero_max]
    | some s =>
      obtain ⟨r, hr, hrok⟩ := Datum.readsWithin_json? hd d s level hj
      refine ⟨r.map (fun x => (.str (joinHalves key), x)) :: rs, ?_, ?_⟩
      · rw [fieldTexts, hj]
        exact .cons (entryReadsTo_field key hr) hrs
      · rw [List.forall_mem_cons, isOk_map, hrok, hok, fieldsDepth]
        omega

end

/-! ### Messages -/

def Message.received (m : Message) : Value :=
  .dict (Value.named [("type", .str m.kind.name), ("content", .str (joinHalves m.content))])

theorem joinHalves_kindName (k : MessageKind) : joinHalves k.name = k.name := by
  cases k <;> rfl

theorem Message.json?_toDatum (m : Message) :
    m.toDatum.json? = some ("\x7b" ++ Text.join "," [quotedPoints "type" ++ ":" ++ quotedPoints m.kind.name,
      quotedPoints "content" ++ ":" ++ quotedPoints m.content] ++ "\x7d") := by
  rw [Message.toDatum, Datum.json?, if_neg]
  · simp only [Datum.fieldTexts, Datum.json?]
  · exact Bool.false_ne_true

theorem Message.readsTo_received (m : Message) {level : Nat} (hl : level < limits.depth) {s : Text}
    (hs : m.toDatum.json? = some s) : ReadsTo limits level s (.ok m.received) := by
  rw [Message.json?_toDatum] at hs
  cases hs
  have hpoints (t : Text) : ReadsTo limits (level + 1) (quotedPoints t) (.ok (.str (joinHalves t))) :=
    Json.readsTo_text (quotedReads_points t)
  have hfields := List.Forall₂.cons (entryReadsTo_field "type" (hpoints m.kind.name))
    (.cons (entryReadsTo_field "content" (hpoints m.content)) .nil)
  have h := Json.readsTo_compactObject hfields
  have hentries := Value.insertAll_nil_named
    [("type", .str m.kind.name), ("content", .str (joinHalves m.content))] (by simp; decide)
  rw [if_neg (Nat.not_le.mpr hl), joinHalves_kindName] at h
  exact (congrArg (fun e => Except.ok (Value.dict e)) hentries) ▸ h

theorem readsTo_messages (ms : List Message) {level : Nat} (hl : level < limits.depth) :
    List.Forall₂ (ReadsTo limits level) (Datum.itemTexts (ms.map Message.toDatum))
      ((ms.map Message.received).map .ok) := by
  induction ms with
  | nil => exact .nil
  | cons m ms ih =>
    refine .cons ?_ ih
    rw [Message.json?_toDatum]
    exact m.readsTo_received hl (Message.json?_toDatum m)

end

/-! ### Answers -/

def Answer.fields (a : Answer) : List Text :=
  Datum.fieldTexts [("success", .bool a.success), ("log", a.log),
    ("messages", .array (a.messages.map Message.toDatum))]

theorem Answer.print_eq (a : Answer) : a.print = "\x7b" ++ Text.join "," a.fields ++ "\x7d" := by
  rw [Answer.print, Answer.toDatum, Datum.json?, if_neg]
  · rfl
  · exact Bool.false_ne_true

theorem Answer.trim_print (a : Answer) : Text.trim Text.isBlank a.print = a.print := by
  rw [Answer.print_eq]
  refine Text.trim_of_avoids (Text.avoids_cons (by decide)) ?_
  rw [List.reverse_append]
  exact Text.avoids_cons (by decide)

/-- The fields of an answer as the caller of a run gets them, with what is left of the log. -/
def Answer.receivedFields (a : Answer) : Option Value → List (Text × Value)
  | none => [("success", .bool a.success), ("messages", .list (a.messages.map Message.received))]
  | some log =>
    [("success", .bool a.success), ("log", log), ("messages", .list (a.messages.map Message.received))]

def Answer.received (a : Answer) (log : Option Value) : Value :=
  .dict (Value.named (a.receivedFields log))

section
variable {limits : Json.Limits} {level : Nat}

def boolText : Bool → Text
  | true => "true"
  | false => "false"

theorem Datum.json?_bool (b : Bool) : (Datum.bool b).json? = some (boolText b) := by
  cases b <;> simp [Datum.json?, boolText]

theorem readsTo_bool (b : Bool) : ReadsTo limits level (boolText b) (.ok (.bool b)) := by
  cases b with
  | true => exact Json.readsTo_word (by simp [Json.words, boolText])
  | false => exact Json.readsTo_word (by simp [Json.words, boolText])

/-- The fields of an answer are read one after another, and only the log can be refused. -/
theorem Answer.fields_readsTo (a : Answer) (hd : 21 ≤ limits.digits) (hl : level + 1 < limits.depth) :
    ∃ log : Option (Except String Value),
      List.Forall₂ (EntryReadsTo [] limits level) a.fields
        (.ok (.str "success", .bool a.success) ::
          ((log.toList.map fun r => r.map fun v => (.str "log", v)) ++
            [.ok (.str "messages", .list (a.messages.map Message.received))])) ∧
      ((∀ r ∈ log, r.isOk = true) ↔ level + a.log.jsonDepth ≤ limits.depth) := by
  have hsuccess := entryReadsTo_field "success" (@readsTo_bool limits level a.success)
  have hlist := Json.readsTo_compactList (readsTo_messages a.messages hl)
  rw [if_neg (by omega), Json.collect_ok] at hlist
  have hmessages := List.Forall₂.cons (entryReadsTo_field "messages" hlist) .nil
  have hfields : a.fields = (quotedPoints "success" ++ ":" ++ boolText a.success) ::
      Datum.fieldTexts [("log", a.log), ("messages", .array (a.messages.map Message.toDatum))] := by
    rw [Answer.fields, Datum.fieldTexts, Datum.json?_bool]
  have hlast : Datum.fieldTexts [("messages", .array (a.messages.map Message.toDatum))]
      = [quotedPoints "messages" ++ ":" ++
          ("[" ++ Text.join "," (Datum.itemTexts (a.messages.map Message.toDatum)) ++ "]")] := by
    simp only [Datum.fieldTexts, Datum.json?]
  cases hj : a.log.json? with
  | none =>
    refine ⟨none, ?_, iff_of_true nofun ?_⟩
    · rw [hfields, Datum.fieldTexts, hj, hlast]
      exact .cons hsuccess hmessages
    · rw [Datum.jsonDepth_of_json?_none hj]
      omega
  | some s =>
    obtain ⟨r, hr, hok⟩ := Datum.readsWithin_json? hd a.log s level hj
    refine ⟨some r, ?_, ?_⟩
    · rw [hfields, Datum.fieldTexts, hj, hlast]
      exact .cons hsuccess (.cons (entryReadsTo_field "log" hr) hmessages)
    · rw [show (∀ x ∈ some r, x.isOk = true) ↔ r.isOk = true by simp, hok]
      omega

end

theorem usualLimits_digits : 21 ≤ Json.usualLimits.digits := by decide

theorem Answer.nodup_receivedFields (a : Answer) (log : Option Value) : ((a.receivedFields log).map (·.1)).Nodup := by
  cases log with
  | none => exact (by decide : (["success", "messages"] : List Text).Nodup)
  | some v => exact (by decide : (["success", "log", "messages"] : List Text).Nodup)

theorem Answer.read_print_eq (a : Answer) : ∃ log : Option (Except String Value),
    ((∀ r ∈ log, r.isOk = true) ↔ a.log.jsonDepth < Json.usualLimits.depth) ∧
    Json.read a.print =
      match log with
      | none => .ok (a.received none)
      | some (.ok v) => .ok (a.received (some v))
      | some (.error collection) => Json.tooDeep collection := by
  obtain ⟨log, hfields, hok⟩ := a.fields_readsTo usualLimits_digits
    (show 1 + 1 < Json.usualLimits.depth by decide)
  have hread := (Json.readsTo_compactObject hfields).readWithin
  rw [if_neg (by decide), ← a.print_eq] at hread
  refine ⟨log, hok.trans (by omega), ?_⟩
  rw [Json.read, hread]
  match log with
  | none =>
    have h := Value.insertAll_nil_named _ (a.nodup_receivedFields none)
    exact congrArg (fun e => Except.ok (Value.dict e)) h
  | some (.ok v) =>
    have h := Value.insertAll_nil_named _ (a.nodup_receivedFields (some v))
    exact congrArg (fun e => Except.ok (Value.dict e)) h
  | some (.error collection) => rfl

/-- **An answer reads back** with its success and its messages, unless its log is too deep. -/
theorem Answer.read_print (a : Answer) (h : a.log.jsonDepth < Json.usualLimits.depth) :
    ∃ log, Json.read a.print = .ok (a.received log) := by
  obtain ⟨log, hok, hread⟩ := a.read_print_eq
  match log with
  | none => exact ⟨none, hread⟩
  | some (.ok v) => exact ⟨some v, hread⟩
  | some (.error collection) => exact absurd (hok.mpr h _ rfl) Bool.false_ne_true

theorem Answer.read_print_deep (a : Answer) (h : Json.usualLimits.depth ≤ a.log.jsonDepth) :
    ∃ collection, Json.read a.print = Json.tooDeep collection := by
  obtain ⟨log, hok, hread⟩ := a.read_print_eq
  match log with
  | none => exact absurd (hok.mp nofun) (by omega)
  | some (.ok v) => exact absurd (hok.mp fun r hr => by cases hr; rfl) (by omega)
  | some (.error collection) => exact ⟨collection, hread⟩

end PluginKit.Registrar
