import PluginKit.Proofs.Bridge.Delivery
import PluginKit.Proofs.Json.Denoted

/-!
# Results of runs

Whoever runs a component of a plugin file looks things up in the result, as in a dictionary. Almost every way in which
the interpreter can end comes to one: if it is not there or takes too long, if it fails, if it prints nothing or
something that is no JSON, the result is a dictionary that says so. What it prints as JSON is passed on as it is, and
that is a dictionary only if it begins with a brace (`run_dictionary_iff`).
-/

namespace PluginKit.Json

/-! ### Objects -/

theorem not_denoted_dict {entries : List (Value × Value)} : ¬ Denoted 0 (.dict entries) := by
  intro h
  cases h with
  | scalar h _ => cases h

theorem readValue_dict_iff {limits : Limits} {level fuel : Nat} {p q : Place} {v : Value}
    (hdigits : limits.digits ≤ Text.maxDigits) (h : readValue limits level (fuel + 1) p = .ok (v, q)) :
    (∃ entries, v = .dict entries) ↔ p.rest.head? = some (.scalar '\x7b') := by
  rw [readValue] at h
  split at h
  · next hrest =>
    obtain ⟨r, -, hr⟩ := bind_eq_ok h
    cases hr
    rw [hrest]
    exact iff_of_false (by rintro ⟨_, h⟩; cases h) (by simp)
  · next hrest =>
    have hlist : ∃ items, v = .list items := by
      split at h
      · cases h
      · dsimp only at h
        split at h
        · cases h
          exact ⟨_, rfl⟩
        · obtain ⟨r, -, hr⟩ := bind_eq_ok h
          cases hr
          exact ⟨_, rfl⟩
    obtain ⟨items, rfl⟩ := hlist
    rw [hrest]
    exact iff_of_false (by rintro ⟨_, h⟩; cases h) (by simp)
  · next hrest =>
    rw [hrest]
    refine iff_of_true ?_ rfl
    split at h
    · cases h
    · dsimp only at h
      split at h
      · cases h
        exact ⟨_, rfl⟩
      · obtain ⟨r, -, hr⟩ := bind_eq_ok h
        cases hr
        exact ⟨_, rfl⟩
  · next hbrace =>
    have hscalar : Denoted 0 v := by
      split at h
      · next w hw =>
        cases h
        exact denoted_word hw
      · exact denoted_readNumber hdigits h
    refine iff_of_false ?_ ?_
    · rintro ⟨entries, rfl⟩
      exact not_denoted_dict hscalar
    · intro hhead
      obtain ⟨cs, hcs⟩ := List.head?_eq_some_iff.mp hhead
      exact hbrace cs hcs

/-- **A JSON text is that of a dictionary exactly if it begins with a brace.** -/
theorem read_dict_iff {text : Text} {v : Value} (hblank : Opens (isJsonBlank · = false) text) (h : read text = .ok v) :
    (∃ entries, v = .dict entries) ↔ text.head? = some (.scalar '\x7b') := by
  have hstart : (⟨0, text⟩ : Place).skipBlanks = ⟨0, text⟩ := skipBlanks_opens isBlanks_nil hblank 0
  rw [read, readWithin] at h
  split at h
  · cases h
  · obtain ⟨r, hr, h⟩ := bind_eq_ok h
    rw [hstart] at hr
    dsimp only at h
    split at h
    · cases h
      exact readValue_dict_iff (Nat.le_refl _) hr
    · cases h

end PluginKit.Json

namespace PluginKit.Bridge

open Text (trim isBlank)

/-! ### Dictionaries -/

theorem isBlank_of_isJsonBlank {c : CodePoint} (h : Json.isJsonBlank c = true) : isBlank c = true := by
  simp only [Json.isJsonBlank, Bool.or_eq_true, beq_iff_eq] at h
  rcases h with ((rfl | rfl) | rfl) | rfl
  all_goals decide

/-- What was printed, without the blanks around it, does not begin with a blank of JSON. -/
theorem opens_trim (output : Text) : Json.Opens (Json.isJsonBlank · = false) (trim isBlank output) := by
  intro c hc
  obtain ⟨s, hs⟩ := List.head?_eq_some_iff.mp hc
  have hblank := Text.avoids_of_trim hs
  by_contra h
  rw [isBlank_of_isJsonBlank (Bool.not_eq_false _ ▸ h)] at hblank
  cases hblank

def IsDictionary (v : Value) : Prop := ∃ entries, v = .dict entries

theorem isDictionary_failure (reason : Text) : IsDictionary (failure reason) := ⟨_, rfl⟩

/-- Only a dictionary can be asked for a key, if the value was read. -/
theorem get_iff_of_read {text : Text} {v : Value} (h : Json.read text = .ok v) (key : Text) (default : Value) :
    (∃ w, v.get key default = .ok w) ↔ IsDictionary v := by
  have hview := (Json.denoted_of_read h).view_eq
  unfold Value.get
  split
  · next entries hentries => exact iff_of_true ⟨_, rfl⟩ ⟨entries, hview.symm.trans hentries⟩
  · next hne =>
    refine iff_of_false ?_ ?_
    · rintro ⟨w, hw⟩
      cases hw
    · rintro ⟨entries, rfl⟩
      exact hne entries rfl

theorem get_iff_of_dictionary {v : Value} (h : IsDictionary v) (key : Text) (default : Value) :
    (∃ w, v.get key default = .ok w) ↔ IsDictionary v := by
  obtain ⟨entries, rfl⟩ := h
  exact iff_of_true ⟨_, rfl⟩ ⟨entries, rfl⟩

/-! ### Ways to end -/

/-- The run ends well, and prints a JSON text that does not begin with a brace. -/
def Exit.PrintsOther (e : Exit) : Prop :=
  ∃ output errors v, e = .finished 0 output errors ∧ Json.read (trim isBlank output) = .ok v ∧
    (trim isBlank output).head? ≠ some (.scalar '\x7b')

/-- A value that can be asked for keys exactly if it is a dictionary, which it is exactly if the condition fails. -/
structure DictionaryUnless (other : Prop) (v : Value) : Prop where
  dictionary : IsDictionary v ↔ ¬ other
  get : ∀ key default, (∃ w, v.get key default = .ok w) ↔ IsDictionary v

theorem dictionaryUnless_of_not {other : Prop} (h : ¬ other) {v : Value} (hv : IsDictionary v) :
    DictionaryUnless other v :=
  ⟨iff_of_true hv h, get_iff_of_dictionary hv⟩

/-- **What a run comes to** is a dictionary, unless something else is printed as JSON. -/
theorem Exit.result_dictionaryUnless (e : Exit) : DictionaryUnless e.PrintsOther e.result.1 := by
  cases e with
  | timedOut =>
    refine dictionaryUnless_of_not ?_ (isDictionary_failure _)
    rintro ⟨output, errors, v, h, -⟩
    cases h
  | refused reason =>
    refine dictionaryUnless_of_not ?_ (isDictionary_failure _)
    rintro ⟨output, errors, v, h, -⟩
    cases h
  | finished code output errors =>
    unfold Exit.result
    by_cases hcode : code = 0
    · subst hcode
      simp only [bne_self_eq_false, Bool.false_eq_true, if_false]
      by_cases hempty : (trim isBlank output).isEmpty = true
      · rw [if_pos hempty]
        refine dictionaryUnless_of_not ?_ ⟨_, rfl⟩
        rintro ⟨output', errors', v, h, hread, -⟩
        cases h
        rw [List.isEmpty_iff.mp hempty] at hread
        cases hread
      · rw [if_neg hempty]
        cases hread : Json.read (trim isBlank output) with
        | error e =>
          refine dictionaryUnless_of_not ?_ (isDictionary_failure _)
          rintro ⟨output', errors', v, h, hread', -⟩
          cases h
          cases hread.symm.trans hread'
        | ok v =>
          refine ⟨?_, get_iff_of_read hread⟩
          refine (Json.read_dict_iff (opens_trim output) hread).trans ⟨?_, fun h => ?_⟩
          · rintro hbrace ⟨output', errors', v', h, -, hother⟩
            cases h
            exact hother hbrace
          · by_contra hother
            exact h ⟨output, errors, v, rfl, hread, hother⟩
    · have hne : (code != 0) = true := bne_iff_ne.mpr hcode
      simp only [hne, if_true]
      refine dictionaryUnless_of_not ?_ (isDictionary_failure _)
      rintro ⟨output', errors', v, h, -⟩
      cases h
      exact hcode rfl

/-- **Which runs have a dictionary for a result.** Nothing but a refusal of the interpreter to be asked is a fault. All
other runs have a result, and it is a dictionary, which can be asked for every key, unless the interpreter ends well and
prints a JSON text that does not begin with a brace. -/
theorem run_dictionary_iff (i : Interpreter) (sdkPath pluginPath name : Text) {context : Value} {data : Text}
    (hcontext : Json.write Json.compact context = .ok data) :
    (∀ f, run i sdkPath pluginPath (.str name) context = .error f ↔ i.probe = .refused f) ∧
      ∀ report, run i sdkPath pluginPath (.str name) context = .ok report →
        (IsDictionary report.result ↔ ¬ (i.probe = .ready ∧ i.exit.PrintsOther)) ∧
        ∀ key default, (∃ v, report.result.get key default = .ok v) ↔ IsDictionary report.result := by
  have hdictionary : ∀ report, run i sdkPath pluginPath (.str name) context = .ok report →
      DictionaryUnless (i.probe = .ready ∧ i.exit.PrintsOther) report.result := by
    intro report hreport
    cases hprobe : i.probe with
    | ready =>
      obtain ⟨script, hrun⟩ := run_ready hprobe sdkPath pluginPath name hcontext
      cases hrun.symm.trans hreport
      simpa only [true_and] using i.exit.result_dictionaryUnless
    | missing | timedOut | failed =>
      rw [run, hprobe] at hreport
      cases hreport
      exact dictionaryUnless_of_not (fun h => by cases h.1) (isDictionary_failure _)
    | refused f =>
      rw [run, hprobe] at hreport
      cases hreport
  refine ⟨fun f => ?_, fun report hreport => ⟨(hdictionary report hreport).dictionary, (hdictionary report hreport).get⟩⟩
  cases hprobe : i.probe with
  | ready =>
    obtain ⟨script, hrun⟩ := run_ready hprobe sdkPath pluginPath name hcontext
    rw [hrun]
    exact iff_of_false (fun h => by cases h) fun h => by cases h
  | missing | timedOut | failed =>
    rw [run, hprobe]
    exact iff_of_false (fun h => by cases h) fun h => by cases h
  | refused f' =>
    rw [run, hprobe]
    constructor
    · intro h
      cases h
      rfl
    · intro h
      cases h
      rfl

def listPrinter : Interpreter := ⟨.ready, .finished 0 "[]\n" ""⟩

theorem listPrinter_printsOther : listPrinter.exit.PrintsOther :=
  ⟨"[]\n", "", .list [], rfl, by rfl, by decide⟩

theorem listPrinter_no_dictionary :
    Json.write Json.compact (.dict []) = .ok ("\x7b\x7d" : Text) ∧ listPrinter.exit.PrintsOther ∧
      ∀ report, run listPrinter "sdk" "/p.js" (.str "c") (.dict []) = .ok report →
        ¬ IsDictionary report.result ∧ ¬ ∃ v, report.result.get "messages" (.list []) = .ok v := by
  have hcontext : Json.write Json.compact (.dict []) = .ok ("\x7b\x7d" : Text) := by rfl
  refine ⟨hcontext, listPrinter_printsOther, fun report hreport => ?_⟩
  obtain ⟨hdictionary, hget⟩ := (run_dictionary_iff listPrinter "sdk" "/p.js" "c" hcontext).2 report hreport
  have hnot : ¬ IsDictionary report.result := fun h => hdictionary.mp h ⟨rfl, listPrinter_printsOther⟩
  exact ⟨hnot, fun h => hnot ((hget _ _).mp h)⟩

/-- A number that is printed is the result, and cannot be asked for messages. -/
theorem numberPrinter_result : ∃ script,
    run ⟨.ready, .finished 0 "5" ""⟩ "sdk" "/p.js" (.str "c") (.dict []) = .ok ⟨.int 5, [], some script⟩ ∧
      (Value.int 5).get "messages" (.list []) = .error (.noMember .int "get") := by
  have hcontext : Json.write Json.compact (.dict []) = .ok ("\x7b\x7d" : Text) := by rfl
  obtain ⟨script, hrun⟩ := run_ready (i := ⟨.ready, .finished 0 "5" ""⟩) rfl "sdk" "/p.js" "c" hcontext
  have hresult : (Exit.finished 0 "5" "").result = (.int 5, []) := by rfl
  exact ⟨script, by rw [hrun, hresult], rfl⟩

end PluginKit.Bridge
