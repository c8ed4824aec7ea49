import ProcCall.Proofs.Acceptance
import ProcCall.Proofs.Faithful
import ProcCall.Proofs.Arguments
import ProcCall.Proofs.Heads
import ProcCall.Proofs.Machine

/-!
# Which failures are reported

Every stage of preparing a call fails in its own ways, and all of them are reported to the
caller but one: an integer of more digits than are read stops the binding without a report.

* `Error.Reported`: a report on one of the five topics of a call.
* `CallHead.reported`, `Slot.reported`, `Call.reported`: reading a call reports all its failures.
* `Binding.ofSlots_error`: binding reports all but the long integer.
* `Prepared.failures_reported_iff`: all failures are reported exactly when binding comes to
  no integer that is too long.
-/

namespace ProcCall

open Outcome

variable {config : Config} {declared : List Param} {t : Text} {e : Error}

/-- Whether a cause is **reported** on one of the topics of a call: its head, its tokens,
its arguments, their binding or their values. -/
def Error.Reported (e : Error) : Prop :=
  ∃ r, e.report? = some r ∧ r.topic.name ∈
    ["SQLProcParsingError", "LexError", "ParserError", "BindingError", "EvaluationError"]

/-- Every report is on one of these topics. -/
theorem Error.reported_of_report? {r : Report} (h : e.report? = some r) : e.Reported := by
  refine ⟨r, h, ?_⟩
  cases e <;> cases h <;> exact List.mem_of_elem_eq_true rfl

/-! ## Reading a call -/

theorem CallHead.reported (h : CallHead.ofText config t = .error e) : e.Reported := by
  unfold CallHead.ofText at h
  split at h
  · cases h; exact Error.reported_of_report? rfl
  · split at h
    · cases h; exact Error.reported_of_report? rfl
    · cases h

theorem Slot.reported (h : Slot.ofText config t = .error e) : e.Reported := by
  rcases Slot.ofText_eq_error_iff.1 h with ht | ⟨tokens, -, cause, hc, rfl⟩
  · rw [Token.eq_unclosedQuote_of_ofText ht]
    exact Error.reported_of_report? rfl
  · obtain ⟨token, state, rfl | rfl⟩ := Slot.readFrom_error hc
    · exact Error.reported_of_report? rfl
    · exact Error.reported_of_report? rfl

/-- Every text that is no call is reported. -/
theorem Call.reported (h : Call.ofText config t = .error e) : e.Reported := by
  rcases Call.ofText_eq_error_iff.1 h with h | ⟨head, -, h⟩
  · exact CallHead.reported h
  · exact Slot.reported h

/-! ## Binding the arguments -/

/-- An integer of more digits than are read. -/
def Literal.TooLong (value : Text) : Prop :=
  Digits.isNumeral value = true ∧ Digits.readLimit < value.length

/-- A value that is no literal is reported, unless it is an integer that is too long. -/
theorem Literal.ofText_error {value : Text} (h : Literal.ofText value = .error e) :
    e = .notLiteral value ∨ Literal.TooLong value ∧ e = .tooManyDigits value.length := by
  unfold Literal.ofText at h
  split at h
  · cases h
  · by_cases hnum : Digits.isNumeral value = true
    · rw [if_pos hnum] at h
      by_cases hlong : Digits.readLimit < value.length
      · rw [if_pos hlong] at h
        cases h; exact .inr ⟨⟨hnum, hlong⟩, rfl⟩
      · rw [if_neg hlong] at h
        split at h
        · cases h; exact .inl rfl
        · cases h
    · rw [if_neg hnum] at h
      split at h
      · cases h
      · split at h
        · cases h
        · cases h; exact .inl rfl

theorem Literal.ofText_of_tooLong {value : Text} (h : Literal.TooLong value) :
    Literal.ofText value = .error (.tooManyDigits value.length) := by
  unfold Literal.ofText
  rw [Literal.body?_of_isNumeral h.1]
  simp only
  rw [if_pos h.1, if_pos h.2]

namespace Binding

variable {slots : List Slot}

theorem choose_reported {taken : List Param} {slot : Slot}
    (h : choose config declared taken slot = .error e) : e.Reported := by
  unfold choose at h
  split at h
  · split at h
    · cases h; exact Error.reported_of_report? rfl
    · split at h
      · cases h; exact Error.reported_of_report? rfl
      · cases h
  · split at h
    · cases h; exact Error.reported_of_report? rfl
    · cases h

/-- Whether binding comes to a **long integer**: the arguments before some argument are
bound, that one has a parameter too, and its value is an integer that is too long. -/
def MeetsLongInteger (config : Config) (declared : List Param) (slots : List Slot) : Prop :=
  ∃ before slot after, bindingOrder slots = before ++ slot :: after ∧
    Placeable config declared (before ++ [slot]) ∧ (∀ s ∈ before, Evaluable config s.value) ∧
    config.isVariable slot.value = false ∧ Literal.TooLong slot.value

/-- **How binding fails**: with a report, or at a long integer. -/
theorem ofSlots_error (h : ofSlots config declared slots = .error e) :
    e.Reported ∨ MeetsLongInteger config declared slots := by
  obtain ⟨before, slot, after, params, mid, horder, hrun, hfail⟩ :=
    run_eq_error_iff.1 (ofSlots_eq_error_iff_run.1 h)
  obtain ⟨hbefore, heval, rfl⟩ := run_eq_ok_iff.1 hrun
  rw [taken_record_zip hbefore.length] at hfail
  rcases hfail with hc | ⟨p, hp, ha⟩
  · exact .inl (choose_reported hc)
  · obtain ⟨hvar, hlit⟩ := assign_eq_error_iff.1 ha
    rcases Literal.ofText_error hlit with rfl | ⟨hlong, -⟩
    · exact .inl (Error.reported_of_report? rfl)
    · have hplace := (placeable_append_iff horder).2 ⟨params, p, hbefore, hp⟩
      exact .inr ⟨before, slot, after, horder, hplace, heval, hvar, hlong⟩

/-- A long integer stops the binding. -/
theorem ofSlots_of_meetsLongInteger (h : MeetsLongInteger config declared slots) :
    ∃ count, ofSlots config declared slots = .error (.tooManyDigits count) := by
  obtain ⟨before, slot, after, horder, hplace, heval, hvar, hlong⟩ := h
  obtain ⟨params, p, hbefore, hp⟩ := (placeable_append_iff horder).1 hplace
  have hrun : run config declared .empty before =
      .ok (params, State.empty.record config (before.zip params)) :=
    run_eq_ok_iff.2 ⟨hbefore, heval, rfl⟩
  refine ⟨slot.value.length, ofSlots_eq_error_iff_run.2 (run_eq_error_iff.2
    ⟨before, slot, after, params, _, horder, hrun, .inr ⟨p, ?_, ?_⟩⟩)⟩
  · rw [taken_record_zip hbefore.length]; exact hp
  · exact assign_eq_error_iff.2 ⟨hvar, Literal.ofText_of_tooLong hlong⟩

end Binding

namespace Prepared

/-- **When every failure is reported.** Preparing a call gives a result or a report on one
of the five topics, unless the text is a call and its binding comes to a long integer. -/
theorem failures_reported_iff (config : Config) (declared : List Param) (t : Text) :
    (∀ e, ofText config declared t = .error e → e.Reported) ↔
      ¬ ∃ call, Call.ofText config t = .ok call ∧
        Binding.MeetsLongInteger config declared call.slots := by
  constructor
  · rintro h ⟨call, hc, hlong⟩
    obtain ⟨count, hb⟩ := Binding.ofSlots_of_meetsLongInteger hlong
    obtain ⟨r, hr, -⟩ := h _ (ofText_eq_error_iff.2 (.inr ⟨call, hc, hb⟩))
    cases hr
  · intro h e he
    rcases ofText_eq_error_iff.1 he with hc | ⟨call, hc, hb⟩
    · exact Call.reported hc
    · rcases Binding.ofSlots_error hb with hrep | hlong
      · exact hrep
      · exact absurd ⟨call, hc, hlong⟩ h

/-- An integer that is too long stops the preparation as the only argument of a call. -/
theorem ofText_of_tooLong {digits : Text} (h : Literal.TooLong digits) {q : Param}
    (hq : q.isReturnValue = false) : ∃ count,
      ofText .standard [q] ("p ".toList ++ digits) = .error (.tooManyDigits count) := by
  let slot : Slot := .positional digits false
  obtain ⟨hnonempty, hdigits⟩ := Bool.and_eq_true_iff.1 h.1
  have hdigit : ∀ c ∈ digits, c.isDigit = true := List.all_eq_true.1 hdigits
  have hform := Lexeme.wellFormed_ofValue (show digits ≠ [] by simpa using hnonempty)
    fun c hc => Lexeme.isWordChar_of_isDigit (hdigit c hc)
  have hwritable : ∀ s ∈ [slot], Slot.Writable .standard s := by
    intro s hs
    rw [List.mem_singleton.1 hs]
    exact ⟨rfl, hform, by simp [slot, Slot.positional], by simp [slot, Slot.positional]⟩
  have hhead : CallHead.ofText .standard ("p ".toList ++ digits) =
      .ok ⟨none, ['p'], ' ' :: digits⟩ :=
    CallHead.ofText_of_word (w := ['p']) (by simp) (List.forall_mem_singleton.2 rfl) rfl rfl
      digits
  have hslots : Slot.ofText .standard (' ' :: digits) = .ok [slot] := by
    have hread := Slot.ofText_written [' '] [] hwritable (List.forall_mem_singleton.2 rfl) (by simp)
    rw [List.append_nil] at hread
    simpa [Text.commaList, slot, Slot.positional, Slot.text, Slot.isNamed] using hread
  have hplace : Binding.Placeable .standard [q] [slot] := by
    refine ⟨?_, List.nodup_nil, ?_⟩
    · intro s hs hnamed
      rw [List.mem_singleton.1 hs] at hnamed
      cases hnamed
    · have hfree : Binding.freeParams .standard [q] [slot] = [q] := by
        simp [Binding.freeParams, Binding.namedTargets, slot, Slot.positional, Slot.isNamed, hq,
          List.eraseDups_cons]
      rw [hfree]
      exact le_refl 1
  have hmeets : Binding.MeetsLongInteger .standard [q] [slot] :=
    ⟨[], slot, [], rfl, hplace, by simp, Plain.isVariable_of_isNumeral h.1, h⟩
  obtain ⟨count, hbind⟩ := Binding.ofSlots_of_meetsLongInteger hmeets
  exact ⟨count, ofText_eq_error_iff.2
    (.inr ⟨_, Call.ofText_eq_ok_iff.2 ⟨_, _, hhead, hslots, rfl⟩, hbind⟩)⟩

/-- A call with an integer of 4301 digits is refused without a report. -/
theorem failure_unreported_of_nines : ∃ e,
    ofText .standard [⟨0, "@a".toList, 1, .input⟩] ("p ".toList ++ List.replicate 4301 '9') =
      .error e ∧ ¬ e.Reported := by
  have hnumeral : ∀ n, Digits.isNumeral (List.replicate (n + 1) '9') = true := by
    intro n
    have hnine : '9'.isDigit = true := by decide
    simp [Digits.isNumeral, hnine]
  have hlong : Literal.TooLong (List.replicate 4301 '9') := by
    refine ⟨hnumeral 4300, ?_⟩
    rw [List.length_replicate]
    decide
  obtain ⟨count, h⟩ := ofText_of_tooLong hlong (q := ⟨0, "@a".toList, 1, .input⟩) rfl
  refine ⟨_, h, ?_⟩
  rintro ⟨r, hr, -⟩
  cases hr

end Prepared

end ProcCall
