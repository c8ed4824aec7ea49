import ProcCall.Proofs.Acceptance
import Mathlib.Data.List.Induction

/-!
# Reading tokens in parts

Tokens are read from the left, so a list of them can be cut anywhere: the first part closes some
slots and leaves something in hand (`Progress.run?`), and the second part is read from there. A
reading that stops inside the first part stops there whatever follows.

* `Progress.run?_concat_eq_some_iff`, `Progress.run?_eq_none_iff`: one more token, and the token
  that a run stops at.
* `Progress.eq_start_iff_of_run?`: when nothing is in hand.
* `Progress.afterBlank_of_run?`: when a blank would make no difference.
* `Slot.readFrom_append`, `Slot.readFrom_append_eq_ok_iff`: reading cut in two.
* `Slot.readFrom_of_run?`, `Slot.readFrom_eq_unexpectedToken_iff`: how a reading ends.
-/

namespace ProcCall

open Outcome

variable {config : Config} {p q r : Progress} {t u : Token} {ts xs ys : List Token}
  {slots : List Slot}

namespace Progress

/-! ## One step -/

@[simp] theorem state_afterBlank (p : Progress) : p.afterBlank.state = p.state := by
  cases p <;> rfl

/-- Only for a text does it matter whether a blank came before. -/
theorem step?_afterBlank (ht : t.kind ≠ .text) :
    p.afterBlank.step? config t = p.step? config t := by
  cases p <;> simp [step?, afterBlank, slot?, advance?, ht]

/-- A token that is no blank leaves nothing in hand exactly when it closes a slot. -/
theorem eq_start_iff_of_step? {closed : Option Slot} (h : p.step? config t = some (closed, q))
    (ht : t.kind ≠ .blank) : q = start ↔ t.closes = true := by
  rcases step?_cases h with ⟨_, hc, -, -, rfl⟩ | ⟨-, he, -, rfl⟩ | ⟨hc, ha, -⟩
  · simp [hc]
  · simp [Token.closes, he]
  · have hq : q ≠ start := by
      by_cases hp : p = start
      · subst hp
        rcases advance?_start ha with ⟨hb, -⟩ | ⟨-, rfl⟩
        · exact absurd hb ht
        · exact ofValue_ne_start _ _ _
      · exact advance?_ne_start hp ha
    simp [hc, hq]

/-- A blank makes a difference after a value only. -/
theorem afterBlank_of_step? {closed : Option Slot} (h : p.step? config t = some (closed, q))
    (ht : t.isValue = false) : q.afterBlank = q := by
  rcases step?_cases h with ⟨_, -, -, -, rfl⟩ | ⟨-, -, -, rfl⟩ | ⟨-, ha, -⟩
  · rfl
  · rfl
  · rcases eq_shape p with rfl | ⟨name, rfl⟩ | ⟨name, value, spaced, rfl⟩ | ⟨name, value, rfl⟩
    · rcases advance?_start ha with ⟨-, rfl⟩ | ⟨hv, -⟩
      · rfl
      · rw [ht] at hv; cases hv
    · rcases advance?_expectValue ha with ⟨-, rfl⟩ | ⟨hv, -⟩
      · rfl
      · rw [ht] at hv; cases hv
    · rcases advance?_ofValue ha with ⟨-, rfl⟩ | ⟨-, -, rfl⟩ | ⟨-, -, rfl⟩
      · exact afterBlank_ofValue _ _ _
      · rfl
      · exact afterBlank_ofOutput _ _
    · rw [(advance?_ofOutput ha).2]
      exact afterBlank_ofOutput _ _

/-! ## Runs -/

/-- The slots that some tokens close, and what has been read after them. -/
def run? (config : Config) : Progress → List Token → Option (List Slot × Progress)
  | p, [] => some ([], p)
  | p, t :: ts =>
    match p.step? config t with
    | none => none
    | some (closed, q) => (run? config q ts).map fun (slots, r) => (closed.toList ++ slots, r)

theorem run?_nil (p : Progress) : p.run? config [] = some ([], p) := rfl

theorem run?_cons_eq_some_iff : p.run? config (t :: ts) = some (slots, r) ↔
    ∃ closed q others, p.step? config t = some (closed, q) ∧
      q.run? config ts = some (others, r) ∧ slots = closed.toList ++ others := by
  rw [run?]
  cases p.step? config t with
  | none => simp
  | some next =>
    obtain ⟨closed, q⟩ := next
    simp only [Option.map_eq_some_iff, Prod.exists, Prod.mk.injEq, Option.some.injEq]
    constructor
    · rintro ⟨others, _, hrest, rfl, rfl⟩
      exact ⟨closed, q, others, ⟨rfl, rfl⟩, hrest, rfl⟩
    · rintro ⟨_, _, others, ⟨rfl, rfl⟩, hrest, rfl⟩
      exact ⟨others, r, hrest, rfl, rfl⟩

/-- **One more token at the end** makes one more step. -/
theorem run?_concat_eq_some_iff : p.run? config (ts ++ [t]) = some (slots, r) ↔
    ∃ others q closed, p.run? config ts = some (others, q) ∧
      q.step? config t = some (closed, r) ∧ slots = others ++ closed.toList := by
  induction ts generalizing p slots with
  | nil =>
    simp only [List.nil_append, run?_cons_eq_some_iff, run?_nil, Option.some.injEq, Prod.mk.injEq]
    constructor
    · rintro ⟨closed, _, _, hstep, ⟨rfl, rfl⟩, rfl⟩
      exact ⟨[], p, closed, ⟨rfl, rfl⟩, hstep, by simp⟩
    · rintro ⟨_, _, closed, ⟨rfl, rfl⟩, hstep, rfl⟩
      exact ⟨closed, r, [], hstep, ⟨rfl, rfl⟩, by simp⟩
  | cons u ts ih =>
    simp only [List.cons_append, run?_cons_eq_some_iff, ih]
    constructor
    · rintro ⟨first, s, _, hfirst, ⟨others, q, closed, hrun, hstep, rfl⟩, rfl⟩
      exact ⟨_, q, closed, ⟨first, s, others, hfirst, hrun, rfl⟩, hstep, by simp⟩
    · rintro ⟨_, q, closed, ⟨first, s, others, hfirst, hrun, rfl⟩, hstep, rfl⟩
      exact ⟨first, s, _, hfirst, ⟨others, q, closed, hrun, hstep, rfl⟩, by simp⟩

/-- **A run stops** at a token for which there is no step. -/
theorem run?_eq_none_iff : p.run? config ts = none ↔
    ∃ before t after slots q, ts = before ++ t :: after ∧
      p.run? config before = some (slots, q) ∧ q.step? config t = none := by
  constructor
  · intro h
    induction ts generalizing p with
    | nil => cases h
    | cons t ts ih =>
      rw [run?] at h
      cases hstep : p.step? config t with
      | none => exact ⟨[], t, ts, [], p, rfl, rfl, hstep⟩
      | some next =>
        obtain ⟨closed, s⟩ := next
        rw [hstep] at h
        obtain ⟨before, u, after, slots, q, rfl, hrun, hstop⟩ := ih (Option.map_eq_none_iff.1 h)
        exact ⟨t :: before, u, after, _, q, rfl,
          run?_cons_eq_some_iff.2 ⟨closed, s, slots, hstep, hrun, rfl⟩, hstop⟩
  · rintro ⟨before, t, after, slots, q, rfl, hrun, hstop⟩
    induction before generalizing p slots with
    | nil =>
      cases hrun
      rw [List.nil_append, run?, hstop]
    | cons u before ih =>
      obtain ⟨closed, s, others, hstep, hrest, rfl⟩ := run?_cons_eq_some_iff.1 hrun
      rw [List.cons_append, run?, hstep]
      simp only [ih others hrest, Option.map_none]

/-- **When nothing is in hand**: the last token that is no blank closes a slot, or there is
none. -/
theorem eq_start_iff_of_run? (h : start.run? config ts = some (slots, q)) :
    q = start ↔ ∀ t ∈ (ts.filter (·.kind ≠ .blank)).getLast?, t.closes = true := by
  induction ts using List.reverseRecOn generalizing slots q with
  | nil => cases h; simp
  | append_singleton ts t ih =>
    obtain ⟨others, s, closed, hrun, hstep, rfl⟩ := run?_concat_eq_some_iff.1 h
    by_cases ht : t.kind = .blank
    · -- a blank leaves everything as it is
      rw [step?_blank ht] at hstep
      cases hstep
      have hstart : s.afterBlank = start ↔ s = start := by cases s <;> simp [afterBlank]
      rw [hstart, ih hrun]
      simp [ht]
    · rw [eq_start_iff_of_step? hstep ht]
      simp [ht]

/-- **When a blank would make no difference**: no value came last. -/
theorem afterBlank_of_run? (h : start.run? config ts = some (slots, q))
    (hlast : ∀ t ∈ ts.getLast?, t.isValue = false) : q.afterBlank = q := by
  induction ts using List.reverseRecOn with
  | nil => cases h; rfl
  | append_singleton ts t _ =>
    obtain ⟨_, _, _, -, hstep, -⟩ := run?_concat_eq_some_iff.1 h
    exact afterBlank_of_step? hstep (hlast t (by simp))

end Progress

/-! ## Reading cut in two -/

namespace Slot

open Progress

variable {last last' : Token} {state : SlotState}

/-- **What a first part leaves in hand is read on** with the second part. -/
theorem readFrom_append (h : p.run? config xs = some (slots, q)) (ys : List Token) :
    readFrom config p last (xs ++ ys) =
      (readFrom config q (xs.getLast?.getD last) ys).map (slots ++ ·) := by
  induction xs generalizing p last slots with
  | nil =>
    cases h
    rw [List.nil_append, List.getLast?_nil, Option.getD_none]
    cases readFrom config q last ys with
    | error e => rfl
    | ok more => rfl
  | cons t xs ih =>
    obtain ⟨closed, s, others, hstep, hrest, rfl⟩ := run?_cons_eq_some_iff.1 h
    rw [List.cons_append, readFrom_cons hstep, ih hrest, List.getLast?_cons, Option.getD_some]
    cases readFrom config q (xs.getLast?.getD t) ys with
    | error e => rfl
    | ok more => simp [Except.map]

/-- **Where there is no step the reading stops**, whatever follows. -/
theorem readFrom_of_stopped (h : p.run? config xs = some (slots, q))
    (hstop : q.step? config t = none) (ys : List Token) :
    readFrom config p last (xs ++ t :: ys) = .error (.unexpectedToken t q.state none) := by
  rw [readFrom_append h, readFrom, hstop]
  rfl

/-- **A reading that stops inside a first part** stops there whatever follows. -/
theorem exists_error_of_run?_eq_none (h : p.run? config xs = none) :
    ∃ e, ∀ last ys, readFrom config p last (xs ++ ys) = .error e := by
  obtain ⟨before, t, after, slots, q, rfl, hrun, hstop⟩ := run?_eq_none_iff.1 h
  refine ⟨.unexpectedToken t q.state none, fun last ys => ?_⟩
  rw [List.append_assoc, List.cons_append]
  exact readFrom_of_stopped hrun hstop (after ++ ys)

/-- **What is read in two parts**: the slots that the first closes, and those of the second. -/
theorem readFrom_append_eq_ok_iff : readFrom config p last (xs ++ ys) = .ok slots ↔
    ∃ closed q others, p.run? config xs = some (closed, q) ∧
      readFrom config q (xs.getLast?.getD last) ys = .ok others ∧ slots = closed ++ others := by
  constructor
  · intro h
    cases hrun : p.run? config xs with
    | none =>
      obtain ⟨e, he⟩ := exists_error_of_run?_eq_none hrun
      rw [he] at h
      cases h
    | some result =>
      obtain ⟨closed, q⟩ := result
      rw [readFrom_append hrun] at h
      obtain ⟨others, hothers, rfl⟩ := map_eq_ok.1 h
      exact ⟨closed, q, others, rfl, hothers, rfl⟩
  · rintro ⟨closed, q, others, hrun, hothers, rfl⟩
    rw [readFrom_append hrun, hothers]
    rfl

/-- What is read next depends on the step for the next token and, when there is none, on the
state that is told. -/
theorem readFrom_congr (hstep : p.step? config t = q.step? config t)
    (hstate : p.state = q.state) :
    readFrom config p last (t :: ts) = readFrom config q last' (t :: ts) := by
  rw [readFrom, readFrom, hstep, hstate]

/-- **What a reading with all its steps gives**: the slots that it closes when nothing is left in
hand, and otherwise that the tokens end too early. -/
theorem readFrom_of_run? (h : p.run? config ts = some (slots, q)) : readFrom config p last ts =
    if q = .start then .ok slots
    else .error (.unexpectedEnd (ts.getLast?.getD last) q.state none) := by
  have hnone : readFrom config p last (ts ++ []) = _ := readFrom_append h []
  rw [List.append_nil, readFrom] at hnone
  rw [hnone]
  by_cases hq : q = .start
  · simp [hq, Except.map]
  · simp [hq, Except.map]

/-- **Which token a reading stops at**: the first for which there is no step. -/
theorem readFrom_eq_unexpectedToken_iff :
    readFrom config p last ts = .error (.unexpectedToken t state none) ↔
      ∃ before after slots q, ts = before ++ t :: after ∧
        p.run? config before = some (slots, q) ∧ q.step? config t = none ∧ q.state = state := by
  constructor
  · intro h
    cases hrun : p.run? config ts with
    | none =>
      obtain ⟨before, u, after, slots, q, rfl, hbefore, hstop⟩ := run?_eq_none_iff.1 hrun
      rw [readFrom_of_stopped hbefore hstop] at h
      cases h
      exact ⟨before, after, slots, q, rfl, hbefore, hstop, rfl⟩
    | some result =>
      -- all tokens have a step, so the reading ends with them
      obtain ⟨slots, q⟩ := result
      rw [readFrom_of_run? hrun] at h
      split at h
      · cases h
      · cases h
  · rintro ⟨before, after, slots, q, rfl, hrun, hstop, rfl⟩
    exact readFrom_of_stopped hrun hstop after

end Slot

end ProcCall
