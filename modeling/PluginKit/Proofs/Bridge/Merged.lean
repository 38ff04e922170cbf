import PluginKit.Proofs.Bridge.Classes
import PluginKit.Proofs.Bridge.Lines

/-!
# The commands of a plugin file

The commands of a plugin file are found by four scans of its text: for replies, for object literals, for patterns and
for functions that answer everything. Whatever the text is, all names that the scans come to are reported, each once and
none of them empty (`commands_merged`). A name stands where it came first, with what it had last. Invented names are
numbered without gaps: one series for the replies, and one that the last two scans share.
-/

namespace PluginKit.Bridge

open Text List

variable {s : Text}

/-! ### Names are not empty -/

theorem ne_nil_of_quotedText {r : Text × Text} (h : quotedText s = some r) : r.1 ≠ [] := by
  simp only [quotedText, Option.bind_eq_bind, Option.bind_eq_some_iff] at h
  obtain ⟨⟨_, s₁⟩, -, ⟨text, s₂⟩, hrun, ⟨_, s₃⟩, -, hr⟩ := h
  cases hr
  exact (run_of_takeRun hrun).1

theorem ne_nil_of_replyName {r : Text × Text} (h : replyName s = some r) : r.1 ≠ [] := by
  simp only [replyName, Option.bind_eq_bind, Option.bind_eq_some_iff] at h
  obtain ⟨s₁, -, hread⟩ := h
  exact ne_nil_of_quotedText hread

theorem ne_nil_of_replyCall {r : ReplyCall × Text} (h : replyCall s = some r) : ∀ n ∈ r.1.name, n ≠ [] := by
  simp only [replyCall, Option.bind_eq_bind, Option.bind_eq_some_iff] at h
  obtain ⟨s₁, -, ⟨source, s₂⟩, -, ⟨text, s₃⟩, -, h⟩ := h
  intro n hn
  split at h
  · next name s₄ hname =>
    obtain ⟨s₅, -, hr⟩ := Option.bind_eq_some_iff.mp h
    cases hr
    cases hn
    exact ne_nil_of_replyName hname
  · obtain ⟨s₅, -, hr⟩ := Option.bind_eq_some_iff.mp h
    cases hr
    cases hn

theorem ne_nil_of_keyed {key : Text} {r : Text × Text} (h : keyed key quotedText s = some r) : r.1 ≠ [] := by
  simp only [keyed, Option.bind_eq_bind, Option.bind_eq_some_iff] at h
  obtain ⟨s₁, -, s₂, -, hread⟩ := h
  exact ne_nil_of_quotedText hread

theorem autoReply_ne_nil (i : Nat) : autoReply i ≠ [] := by
  rw [autoReply, ofString_numbered]
  exact cons_ne_nil _ _

theorem autoCommand_ne_nil (i : Nat) : autoCommand i ≠ [] := by
  rw [autoCommand, ofString_numbered]
  exact cons_ne_nil _ _

/-! ### The four scans -/

/-- The scan for replies: each is found under its name or, if it has none, under the number of those before it that have
none. -/
def scannedReplies (s : Text) : List Registration :=
  (findAll replyCall s).mapIdx fun i call =>
    ⟨call.name.getD (autoReply (((findAll replyCall s).take i).countP (·.name.isNone))),
      .reply (replyPattern call.source) call.text⟩

/-- The scan for object literals: those with a name are found. -/
def scannedObjects (s : Text) : List Registration := objectRegistrations (findAll (objectCall "mai.command") s)

def scannedPatterns (s : Text) : List Registration :=
  (findAll patternCall s).mapIdx fun i pattern => ⟨autoCommand i, .pattern pattern⟩

/-- The scan for functions that answer everything: their numbers follow those of the patterns. -/
def scannedCatchAlls (s : Text) : List Registration :=
  (findAll catchAllCall s).mapIdx fun i _ => ⟨autoCommand ((findAll patternCall s).length + i), .catchAll⟩

/-- The scans in their order. -/
def scans (s : Text) : List (List Registration) :=
  [scannedReplies s, scannedObjects s, scannedPatterns s, scannedCatchAlls s]

theorem scannedReplies_eq (s : Text) : scannedReplies s = replyRegistrations 0 (findAll replyCall s) := by
  rw [replyRegistrations_eq, scannedReplies]
  simp only [Nat.zero_add]

theorem scannedPatterns_append (s : Text) : scannedPatterns s ++ scannedCatchAlls s = numberedCommands 0
    ((findAll patternCall s).map Details.pattern ++ (findAll catchAllCall s).map fun _ => Details.catchAll) := by
  rw [numberedCommands_eq, mapIdx_append, mapIdx_map, mapIdx_map, scannedPatterns, scannedCatchAlls, length_map]
  simp only [Nat.zero_add, Nat.add_comm (List.length _)]

theorem scannedCommands_eq_flatten (s : Text) : scannedCommands s = (scans s).flatten := by
  rw [scannedCommands, ← scannedReplies_eq, ← scannedPatterns_append, scans]
  simp [scannedObjects]

theorem name_ne_nil_of_mem_scans : ∀ scan ∈ scans s, ∀ r ∈ scan, r.name ≠ [] := by
  simp only [scans, forall_mem_cons]
  refine ⟨?_, ?_, ?_, ?_, nofun⟩
  · intro r hr
    obtain ⟨i, hi, rfl⟩ := mem_mapIdx.mp hr
    dsimp only
    cases hname : (findAll replyCall s)[i].name with
    | none => exact autoReply_ne_nil _
    | some name =>
      obtain ⟨u, v, hread⟩ := exists_of_mem_findAll (getElem_mem hi)
      exact ne_nil_of_replyCall hread name hname
  · intro r hr
    obtain ⟨block, -, hblock⟩ := mem_filterMap.mp hr
    obtain ⟨name, hname, rfl⟩ := Option.map_eq_some_iff.mp hblock
    obtain ⟨u, v, -, hread⟩ := exists_of_findFirst? hname
    exact ne_nil_of_keyed hread
  · intro r hr
    obtain ⟨i, -, rfl⟩ := mem_mapIdx.mp hr
    exact autoCommand_ne_nil _
  · intro r hr
    obtain ⟨i, -, rfl⟩ := mem_mapIdx.mp hr
    exact autoCommand_ne_nil _

/-! ### Invented names -/

/-- Names that are numbered from zero on, without gaps. -/
def IsSeries (name : Nat → Text) (names : List Text) : Prop := names = (List.range names.length).map name

theorem isSeries_range (name : Nat → Text) (n : Nat) : IsSeries name ((List.range n).map name) := by
  rw [IsSeries, length_map, length_range]

/-- The names that are invented for replies, in their order. -/
def inventedReplies (s : Text) : List Text :=
  (((findAll replyCall s).zip (scannedReplies s)).filter (·.1.name.isNone)).map (·.2.name)

theorem invented_replyRegistrations (calls : List ReplyCall) : ∀ next : Nat,
    ((calls.zip (replyRegistrations next calls)).filter (·.1.name.isNone)).map (·.2.name)
      = (List.range' next (calls.countP (·.name.isNone))).map autoReply := by
  induction calls with
  | nil => exact fun _ => rfl
  | cons call calls ih =>
    intro next
    rw [replyRegistrations]
    cases hname : call.name with
    | some name =>
      rw [zip_cons_cons, filter_cons_of_neg (by simp [hname]), countP_cons_of_neg (by simp [hname])]
      exact ih next
    | none =>
      rw [zip_cons_cons, filter_cons_of_pos (by simp [hname]), countP_cons_of_pos (by simp [hname]),
        range'_succ, map_cons, map_cons, ih (next + 1)]
      rfl

theorem isSeries_inventedReplies (s : Text) : IsSeries autoReply (inventedReplies s) := by
  rw [inventedReplies, scannedReplies_eq, invented_replyRegistrations, ← range_eq_range']
  exact isSeries_range _ _

theorem isSeries_patterns (s : Text) : IsSeries autoCommand ((scannedPatterns s ++ scannedCatchAlls s).map (·.name)) := by
  rw [scannedPatterns_append, numberedCommands_eq]
  refine ext_getElem (by simp) fun i _ _ => ?_
  simp

/-- **The commands of a plugin file are the four scans, merged by name.** Over every text the names of the commands are
different and not empty, and they are shown as they are. Each name that a scan came to is among them. The names of
replies without one, and those of patterns and catch-alls together, are numbered from zero on. -/
theorem commands_merged (s : Text) :
    MergeOf (scans s).flatten (Registrations.ofText s).commands ∧
      ((Registrations.ofText s).commands.map (·.name)).Nodup ∧
      (∀ r ∈ (Registrations.ofText s).commands, r.name ≠ [] ∧
        ∃ fields, r.toValue = .record fields ∧ fields.lookup "name" = some (.str r.name)) ∧
      (∀ scan ∈ scans s, ∀ r ∈ scan, r.name ∈ (Registrations.ofText s).commands.map (·.name)) ∧
      IsSeries autoReply (inventedReplies s) ∧
      IsSeries autoCommand ((scannedPatterns s ++ scannedCatchAlls s).map (·.name)) := by
  have hcommands : (Registrations.ofText s).commands = mergeByName (scans s).flatten := by
    rw [Registrations.ofText, scannedCommands_eq_flatten]
  refine ⟨?_, ?_, ?_, ?_, isSeries_inventedReplies s, isSeries_patterns s⟩
  · rw [hcommands]
    exact mergeOf_mergeByName _
  · rw [hcommands]
    exact nodup_mergeByName _
  · intro r hr
    obtain ⟨fields, hfields, hrecord⟩ := recordOf_toValue (consistent_ofText s r (List.mem_append_left _ hr))
    rw [hcommands] at hr
    obtain ⟨scan, hscan, hmem⟩ := List.mem_flatten.mp (mem_of_mem_mergeByName hr)
    exact ⟨name_ne_nil_of_mem_scans scan hscan r hmem, fields, hfields, hrecord.name⟩
  · intro scan hscan r hr
    rw [hcommands, mem_mergeByName]
    exact List.mem_map_of_mem (List.mem_flatten.mpr ⟨scan, hscan, hr⟩)

end PluginKit.Bridge
