import ProcCall.Literal
import ProcCall.Token.Canonical
import Mathlib.Data.List.Basic

/-!
# Runs of quote marks

A body of a literal is what `Literal.double` makes of a string. Said without a string: all
longest runs of quote marks in it have even length (`Lexeme.EvenQuotes`).

* `evenQuotes_cons_of_ne`, `evenQuotes_pair`, `not_evenQuotes_single`: even runs, read from
  the left two characters at a time.
* `evenQuotes_iff_double`: the two descriptions agree.
* `Literal.undouble_double`, `Literal.ofText_quote`: a quoted string is read back.
-/

namespace ProcCall

namespace Lexeme

variable {c : Char} {t : Text}

theorem evenQuotes_nil : EvenQuotes [] := by
  intro before run after h _ _ _
  obtain ⟨h, -⟩ := List.append_eq_nil_iff.1 h.symm
  rw [(List.append_eq_nil_iff.1 h).2]; rfl

/-- A character that is no quote mark belongs to no run. -/
theorem evenQuotes_cons_of_ne (hc : c ≠ '\'') : EvenQuotes (c :: t) ↔ EvenQuotes t := by
  constructor
  · intro h before run after ht hrun hb ha
    refine h (c :: before) run after (by rw [ht]; rfl) hrun ?_ ha
    cases before with
    | nil => simpa using hc
    | cons d others => simpa using hb
  · intro h before run after ht hrun hb ha
    cases before with
    | nil =>
      cases run with
      | nil => rfl
      | cons d others =>
        obtain ⟨rfl, -⟩ := List.cons.inj ht
        exact absurd (hrun c List.mem_cons_self) hc
    | cons d others =>
      obtain ⟨rfl, hrest⟩ := List.cons.inj ht
      refine h others run after hrest hrun ?_ ha
      cases others with
      | nil => simp
      | cons d' others => simpa using hb

/-- Two quote marks at the start lengthen the first run by two. -/
theorem evenQuotes_pair : EvenQuotes ('\'' :: '\'' :: t) ↔ EvenQuotes t := by
  constructor
  · intro h before run after ht hrun hb ha
    cases before with
    | nil =>
      have hlong := h [] ('\'' :: '\'' :: run) after (by rw [ht]; rfl) (by simpa using hrun)
        (by simp) ha
      simp only [List.length_cons] at hlong
      omega
    | cons d others =>
      exact h ('\'' :: '\'' :: d :: others) run after (by rw [ht]; rfl) hrun (by simpa using hb) ha
  · intro h before run after ht hrun hb ha
    -- the two marks belong to the run, or to what stands before it
    match before, run with
    | [], [] => rfl
    | [], [_] =>
      obtain ⟨-, hafter⟩ := List.cons.inj ht
      change '\'' :: t = after at hafter
      rw [← hafter] at ha
      exact absurd rfl ha
    | [], _ :: _ :: others =>
      obtain ⟨-, hrest⟩ := List.cons.inj ht
      obtain ⟨-, hrest⟩ := List.cons.inj hrest
      have heven := h [] others after hrest (fun x hx => hrun x (by simp [hx])) (by simp) ha
      simp only [List.length_cons]
      omega
    | [_], _ =>
      obtain ⟨rfl, -⟩ := List.cons.inj ht
      exact absurd rfl hb
    | _ :: _ :: others, run =>
      obtain ⟨rfl, hmid⟩ := List.cons.inj ht
      obtain ⟨rfl, hrest⟩ := List.cons.inj hmid
      refine h others run after hrest hrun ?_ ha
      cases others with
      | nil => simp
      | cons d others => simpa using hb

/-- A quote mark that no other one follows is a run of length one. -/
theorem not_evenQuotes_single (h : t.head? ≠ some '\'') : ¬ EvenQuotes ('\'' :: t) := by
  intro heven
  have hone := heven [] ['\''] t rfl (by simp) (by simp) h
  simp at hone

/-- **Even runs are doubled quote marks.** -/
theorem evenQuotes_iff_double : EvenQuotes t ↔ ∃ s, t = Literal.double s := by
  constructor
  · intro h
    induction t using Literal.undouble.induct with
    | case1 rest ih =>
      obtain ⟨s, rfl⟩ := ih (evenQuotes_pair.1 h)
      exact ⟨'\'' :: s, by simp [Literal.double]⟩
    | case2 c rest hpair ih =>
      by_cases hc : c = '\''
      · -- a mark with no other one after it would be a run of its own
        subst hc
        refine absurd h (not_evenQuotes_single ?_)
        intro hhead
        obtain ⟨others, rfl⟩ := List.head?_eq_some_iff.1 hhead
        exact hpair others rfl rfl
      · obtain ⟨s, rfl⟩ := ih ((evenQuotes_cons_of_ne hc).1 h)
        exact ⟨c :: s, by simp [Literal.double, hc]⟩
    | case3 => exact ⟨[], rfl⟩
  · rintro ⟨s, rfl⟩
    induction s with
    | nil => exact evenQuotes_nil
    | cons c s ih =>
      unfold Literal.double
      by_cases hc : c = '\''
      · rw [if_pos hc, hc]; exact evenQuotes_pair.2 ih
      · rw [if_neg hc]; exact (evenQuotes_cons_of_ne hc).2 ih

end Lexeme

namespace Literal

theorem double_concat (s : Text) (c : Char) :
    double (s ++ [c]) = double s ++ double [c] := by
  induction s with
  | nil => rfl
  | cons d s ih =>
    rw [List.cons_append, double, double, ih]
    split <;> rfl

/-- Doubling the quote marks loses nothing. -/
theorem undouble_double (s : Text) : undouble (double s) = s := by
  induction s with
  | nil => rfl
  | cons c s ih =>
    unfold double
    by_cases hc : c = '\''
    · rw [if_pos hc, hc, undouble, ih]
    · rw [if_neg hc, undouble, ih]
      intro _ h
      exact absurd h hc

/-- Doubling the quote marks makes their number even. -/
theorem count_double (s : Text) : (double s).count '\'' = 2 * s.count '\'' := by
  induction s with
  | nil => rfl
  | cons c s ih =>
    unfold double
    by_cases hc : c = '\''
    · simp only [hc, if_true, List.count_cons_self, ih]
      omega
    · rw [if_neg hc, List.count_cons_of_ne hc, List.count_cons_of_ne hc, ih]

theorem body?_quoted (body : Text) : body? ('\'' :: body ++ ['\'']) = some body := by
  simp [body?]

/-- A numeral is not quoted. -/
theorem body?_of_isNumeral {value : Text} (h : Digits.isNumeral value = true) :
    body? value = none := by
  unfold body?
  split
  · simp [Digits.isNumeral] at h
  · rfl

/-- A quoted string is read back. -/
theorem ofText_quote (s : Text) : ofText (quote s) = .ok (.string s) := by
  have hbody : body? (quote s) = some (double s) := body?_quoted (double s)
  unfold ofText
  rw [hbody]
  simp only [undouble_double]

end Literal

end ProcCall
