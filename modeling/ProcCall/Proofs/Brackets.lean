import ProcCall.Call
import Mathlib.Data.List.Induction

/-!
# Open brackets

Whether a name is complete is decided by its last brackets: it has no opening one, or the last of
them stands before the last closing one. In other words, the last bracket of all, if there is one,
does not open. So it is enough to know that one, and other characters never count.

* `CallHead.isComplete_iff_closed`: completeness by the indices of the last brackets.
* `CallHead.isComplete_iff_lastBracket`: completeness by the last bracket of all.
-/

namespace ProcCall

variable {c d : Char} {t : Text} {i j : Nat}

namespace Text

/-! ## Last occurrences -/

/-- Whether a character stands at an index of a text and at no later one. -/
def LastAt (c : Char) (t : Text) (i : Nat) : Prop :=
  t[i]? = some c ∧ ∀ j, i < j → t[j]? ≠ some c

theorem LastAt.lt_length (h : LastAt c t i) : i < t.length :=
  (List.getElem?_eq_some_iff.1 h.1).1

/-- There is one last occurrence only. -/
theorem LastAt.unique (hi : LastAt c t i) (hj : LastAt c t j) : i = j := by
  have hij : ¬ i < j := fun hlt => hi.2 j hlt hj.1
  have hji : ¬ j < i := fun hlt => hj.2 i hlt hi.1
  omega

theorem LastAt.cons (h : LastAt c t i) (d : Char) : LastAt c (d :: t) (i + 1) := by
  refine ⟨h.1, fun j hj => ?_⟩
  cases j with
  | zero => omega
  | succ j => exact h.2 j (by omega)

theorem lastAt_zero (hc : c ∉ t) : LastAt c (c :: t) 0 := by
  refine ⟨rfl, fun j hj => ?_⟩
  cases j with
  | zero => omega
  | succ j => exact fun hmem => hc (List.mem_of_getElem? hmem)

/-- A character that does not occur has no last index, and one that does has. -/
theorem lastIndexOf?_spec (c : Char) (t : Text) :
    (lastIndexOf? c t = none ∧ c ∉ t) ∨ ∃ i, lastIndexOf? c t = some i ∧ LastAt c t i := by
  induction t with
  | nil => exact .inl ⟨rfl, by simp⟩
  | cons d t ih =>
    rw [lastIndexOf?]
    rcases ih with ⟨hnone, hc⟩ | ⟨i, hsome, hi⟩
    · rw [hnone]
      by_cases hd : d = c
      · subst hd
        exact .inr ⟨0, by simp, lastAt_zero hc⟩
      · exact .inl ⟨by simp [hd], by simp [hc, Ne.symm hd]⟩
    · rw [hsome]
      exact .inr ⟨i + 1, rfl, hi.cons d⟩

theorem lastIndexOf?_eq_none_iff : lastIndexOf? c t = none ↔ c ∉ t := by
  rcases lastIndexOf?_spec c t with ⟨hnone, hc⟩ | ⟨i, hsome, hi⟩
  · simp [hnone, hc]
  · simp [hsome, List.mem_of_getElem? hi.1]

/-- **The index of the last occurrence.** -/
theorem lastIndexOf?_eq_some_iff : lastIndexOf? c t = some i ↔ LastAt c t i := by
  rcases lastIndexOf?_spec c t with ⟨hnone, hc⟩ | ⟨j, hsome, hj⟩
  · rw [hnone]
    constructor
    · intro h; cases h
    · intro hi; exact absurd (List.mem_of_getElem? hi.1) hc
  · rw [hsome, Option.some.injEq]
    constructor
    · rintro rfl; exact hj
    · intro hi; exact hj.unique hi

/-- A further character at the end is the last one. -/
theorem lastIndexOf?_concat :
    lastIndexOf? c (t ++ [d]) = if d = c then some t.length else lastIndexOf? c t := by
  induction t with
  | nil => rfl
  | cons e t ih =>
    rw [List.cons_append, lastIndexOf?, ih, lastIndexOf?]
    by_cases hd : d = c
    · simp [hd]
    · simp [hd]

/-! ## The last bracket -/

/-- Whether a character is a bracket. -/
def isBracket (c : Char) : Bool := c = '[' || c = ']'

/-- The last bracket of a text. -/
def lastBracket? (t : Text) : Option Char := (t.filter isBracket).getLast?

theorem lastBracket?_append (a b : Text) :
    lastBracket? (a ++ b) = (lastBracket? b).or (lastBracket? a) := by
  unfold lastBracket?
  rw [List.filter_append, List.getLast?_append]

theorem lastBracket?_of_forall (h : ∀ c ∈ t, isBracket c = false) : lastBracket? t = none := by
  have hnone : t.filter isBracket = [] := by simpa using h
  rw [lastBracket?, hnone, List.getLast?_nil]

/-- After an opening bracket without a closing one some bracket is open. -/
theorem lastBracket?_of_open (h : ']' ∉ t) : lastBracket? ('[' :: t) = some '[' := by
  have hfilter : ('[' :: t).filter isBracket = '[' :: t.filter isBracket :=
    List.filter_cons_of_pos rfl
  have hall : ∀ c ∈ '[' :: t.filter isBracket, c = '[' := by
    intro c hc
    rcases List.mem_cons.1 hc with rfl | hc
    · rfl
    · obtain ⟨hmem, hbracket⟩ := List.mem_filter.1 hc
      have hclosing : c ≠ ']' := by
        rintro rfl
        exact h hmem
      simpa [isBracket, hclosing] using hbracket
  rw [lastBracket?, hfilter, List.getLast?_eq_some_getLast (by simp)]
  exact congrArg some (hall _ (List.getLast_mem _))

end Text

namespace CallHead

open Text

/-- Whether the brackets of a name are **closed**: none is opened, or the last one that is stands
before the last one that closes. -/
def Closed (name : Text) : Prop :=
  '[' ∉ name ∨ ∃ i j, LastAt '[' name i ∧ LastAt ']' name j ∧ i < j

/-- **A name is complete** when its brackets are closed. -/
theorem isComplete_iff_closed : isComplete t = true ↔ Closed t := by
  unfold isComplete Closed
  rw [← lastIndexOf?_eq_none_iff]
  simp only [← lastIndexOf?_eq_some_iff]
  cases hopen : lastIndexOf? '[' t with
  | none => simp
  | some i =>
    cases hclose : lastIndexOf? ']' t with
    | none => simp
    | some j => simp

instance (name : Text) : Decidable (Closed name) :=
  decidable_of_iff (isComplete name = true) isComplete_iff_closed

/-- One more character at the end of a name. -/
theorem isComplete_concat : isComplete (t ++ [c]) =
    if c = '[' then false else if c = ']' then true else isComplete t := by
  have hlt : ∀ d k, lastIndexOf? d t = some k → k < t.length :=
    fun d k hk => (lastIndexOf?_eq_some_iff.1 hk).lt_length
  unfold isComplete
  rw [lastIndexOf?_concat, lastIndexOf?_concat]
  by_cases hopen : c = '['
  · -- the new bracket comes after every closing one
    subst hopen
    cases hclose : lastIndexOf? ']' t with
    | none => rfl
    | some k =>
      have hk := hlt _ k hclose
      simp only [if_pos, Char.reduceEq, if_false, decide_eq_false_iff_not]
      omega
  · by_cases hclose : c = ']'
    · subst hclose
      cases hopened : lastIndexOf? '[' t with
      | none => rfl
      | some k =>
        have hk := hlt _ k hopened
        simpa using hk
    · simp only [if_neg hopen, if_neg hclose]

/-- **A name is complete** unless its last bracket opens. -/
theorem isComplete_iff_lastBracket : isComplete t = true ↔ lastBracket? t ≠ some '[' := by
  induction t using List.reverseRecOn with
  | nil => simp [isComplete, lastIndexOf?, lastBracket?]
  | append_singleton t c ih =>
    rw [isComplete_concat, lastBracket?_append]
    by_cases hopen : c = '['
    · subst hopen
      simp [lastBracket?, isBracket]
    · by_cases hclose : c = ']'
      · subst hclose
        simp [lastBracket?, isBracket]
      · have hnone : lastBracket? [c] = none :=
          lastBracket?_of_forall (by simp [isBracket, hopen, hclose])
        rw [if_neg hopen, if_neg hclose, hnone, Option.none_or, ih]

end CallHead

end ProcCall
