import ProcCall.Prepared
import ProcCall.Proofs.Outcomes

/-!
# The stages of preparing a call

A call text is cut into its head and its arguments, the arguments are read as tokens and
the tokens as slots, and the slots are bound. Each stage is taken apart here: what it gives
when it succeeds, and where it failed when it does not.

* `Prepared.ofText_eq_ok_iff`, `Prepared.ofText_eq_error_iff`: all stages together.
* `CallHead.walk_returnVariable`: the return variable is one of the words.
-/

namespace ProcCall

open Outcome

variable {config : Config} {declared : List Param} {t : Text} {e : Error}

theorem Slot.ofText_eq_ok_iff {slots : List Slot} : Slot.ofText config t = .ok slots ↔
    ∃ tokens, Token.ofText t = .ok tokens ∧ Slot.ofTokens config tokens = .ok slots := by
  unfold Slot.ofText
  simp only [bind_eq_ok, mapError_eq_ok]

theorem Slot.ofText_eq_error_iff : Slot.ofText config t = .error e ↔
    Token.ofText t = .error e ∨ ∃ tokens, Token.ofText t = .ok tokens ∧
      ∃ cause, Slot.ofTokens config tokens = .error cause ∧ cause.withInput t = e := by
  unfold Slot.ofText
  simp only [bind_eq_error, mapError_eq_error]

theorem Call.ofText_eq_ok_iff {call : Call} : Call.ofText config t = .ok call ↔
    ∃ head slots, CallHead.ofText config t = .ok head ∧
      Slot.ofText config head.arguments = .ok slots ∧
      call = ⟨head.procedureName, head.returnVariable, slots, config⟩ := by
  unfold Call.ofText
  simp only [bind_eq_ok, Except.ok.injEq]
  constructor
  · rintro ⟨head, hh, slots, hs, rfl⟩
    exact ⟨head, slots, hh, hs, rfl⟩
  · rintro ⟨head, slots, hh, hs, rfl⟩
    exact ⟨head, hh, slots, hs, rfl⟩

theorem Call.ofText_eq_error_iff : Call.ofText config t = .error e ↔
    CallHead.ofText config t = .error e ∨
      ∃ head, CallHead.ofText config t = .ok head ∧
        Slot.ofText config head.arguments = .error e := by
  unfold Call.ofText
  simp only [bind_eq_error, reduceCtorEq, and_false, exists_false, or_false]

namespace Prepared

theorem ofText_eq_ok_iff {p : Prepared} : ofText config declared t = .ok p ↔
    ∃ call b, Call.ofText config t = .ok call ∧
      Binding.ofSlots config declared call.slots = .ok b ∧ p = ⟨call, b, declared⟩ := by
  unfold ofText
  simp only [bind_eq_ok, Except.ok.injEq]
  constructor
  · rintro ⟨call, hc, b, hb, rfl⟩
    obtain ⟨_, _, -, -, rfl⟩ := Call.ofText_eq_ok_iff.1 hc
    exact ⟨_, b, hc, hb, rfl⟩
  · rintro ⟨call, b, hc, hb, rfl⟩
    obtain ⟨_, _, -, -, rfl⟩ := Call.ofText_eq_ok_iff.1 hc
    exact ⟨_, hc, b, hb, rfl⟩

theorem ofText_eq_error_iff : ofText config declared t = .error e ↔
    Call.ofText config t = .error e ∨ ∃ call, Call.ofText config t = .ok call ∧
      Binding.ofSlots config declared call.slots = .error e := by
  unfold ofText
  simp only [bind_eq_error, reduceCtorEq, and_false, exists_false, or_false]
  constructor
  · rintro (h | ⟨call, hc, hb⟩)
    · exact .inl h
    · obtain ⟨_, _, -, -, rfl⟩ := Call.ofText_eq_ok_iff.1 hc
      exact .inr ⟨_, hc, hb⟩
  · rintro (h | ⟨call, hc, hb⟩)
    · exact .inl h
    · obtain ⟨_, _, -, -, rfl⟩ := Call.ofText_eq_ok_iff.1 hc
      exact .inr ⟨_, hc, hb⟩

end Prepared

namespace CallHead

/-- The return variable is the one given or one of the words. -/
theorem walk_returnVariable {words name : List Text} {given found : Option Text}
    (h : walk config given words = some (found, name)) :
    found = given ∨ ∃ w ∈ words, found = some w := by
  induction words generalizing given with
  | nil => cases h
  | cons w rest ih =>
    unfold walk at h
    split at h
    · rcases ih h with h | ⟨v, hv, h⟩
      · exact .inl h
      · exact .inr ⟨v, List.mem_cons_of_mem _ hv, h⟩
    · split at h
      · rcases ih h with h | ⟨v, hv, h⟩
        · exact .inr ⟨w, List.mem_cons_self, h⟩
        · exact .inr ⟨v, List.mem_cons_of_mem _ hv, h⟩
      · cases h; exact .inl rfl

theorem returnVariable_ne_nil {head : CallHead} (h : ofText config t = .ok head) :
    head.returnVariable ≠ some [] := by
  unfold ofText at h
  split at h
  · cases h
  · rename_i found name hw
    split at h
    · cases h
    · cases h
      rcases walk_returnVariable hw with rfl | ⟨w, hmem, rfl⟩
      · simp
      · rintro ⟨⟩
        simpa using (List.mem_filter.1 hmem).2

end CallHead

end ProcCall
