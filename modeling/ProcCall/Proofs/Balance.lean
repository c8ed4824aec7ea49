import ProcCall.Proofs.Acceptance
import ProcCall.Proofs.Lossless
import ProcCall.Proofs.Stages

/-!
# Open literals

A literal is left open exactly when the number of quote marks is odd. A mark inside a literal
is written twice, which changes nothing about the number being even or odd, so the number
tells whether a scan ends inside a literal or outside.

* `Lexeme.scan_eq_none_iff`: the number of marks against where a scan begins.
* `Lexeme.ofText?_eq_none_iff`: a whole text.
* `Token.ofText_eq_error_iff_odd`: how reading tokens fails.
* `lexical_error_iff_odd`: the same for tokens and for slots, as it is reported.
-/

namespace ProcCall

open Outcome

variable {config : Config} {t : Text} {e : Error}

namespace Lexeme

/-- A character of another kind than a literal is no quote mark. -/
theorem count_cons_of_kindOf {c : Char} (hc : kindOf c ≠ .quoted) (t : Text) :
    (c :: t).count '\'' = t.count '\'' := by
  have hne : c ≠ '\'' := fun h => hc (kindOf_eq_quoted_iff.2 h)
  exact List.count_cons_of_ne hne

/-- **A scan ends inside a literal** when the marks still to come are even in number and it
begins inside, or odd and it begins outside. -/
theorem scan_eq_none_iff (inside : Bool) (t : Text) :
    scan inside t = none ↔ (t.count '\'' + inside.toNat) % 2 = 1 := by
  fun_induction scan inside t with
  | case1 => simp
  | case2 => simp
  | case3 rest ih =>
    -- two marks inside a literal leave it open
    have hpair : ('\'' :: '\'' :: rest).count '\'' = rest.count '\'' + 2 := by simp
    rw [Option.map_eq_none_iff, ih, hpair]
    omega
  | case4 rest _ ih =>
    have hmark : ('\'' :: rest).count '\'' = rest.count '\'' + 1 := List.count_cons_self
    rw [Option.map_eq_none_iff, ih, hmark, Bool.toNat_true, Bool.toNat_false]
    omega
  | case5 c rest _ hc ih =>
    rw [Option.map_eq_none_iff, ih, List.count_cons_of_ne hc]
  | case6 c rest hkind ih =>
    obtain rfl := kindOf_eq_quoted_iff.1 hkind
    have hmark : ('\'' :: rest).count '\'' = rest.count '\'' + 1 := List.count_cons_self
    rw [Option.map_eq_none_iff, ih, hmark, Bool.toNat_true, Bool.toNat_false]
  | case7 c rest hkind ih =>
    rw [Option.map_eq_none_iff, ih, count_cons_of_kindOf (by simp [hkind])]
  | case8 c rest hkind ih =>
    rw [Option.map_eq_none_iff, ih, count_cons_of_kindOf (by simp [hkind])]
  | case9 c rest hquoted _ _ ih =>
    rw [Option.map_eq_none_iff, ih, count_cons_of_kindOf hquoted]

/-- **A literal is left open exactly when the number of quote marks is odd.** -/
theorem ofText?_eq_none_iff : ofText? t = none ↔ t.count '\'' % 2 = 1 := by
  have h := scan_eq_none_iff false t
  simpa [ofText?] using h

theorem exists_spells_of_even (h : t.count '\'' % 2 = 0) : ∃ ls, Spells t ls := by
  cases hscan : ofText? t with
  | none =>
    have hodd := ofText?_eq_none_iff.1 hscan
    omega
  | some ls => exact ⟨ls, ofText?_eq_some_iff.1 hscan⟩

end Lexeme

open Lexeme

/-- **How reading tokens fails**: at the end of a text with an odd number of quote marks. -/
theorem Token.ofText_eq_error_iff_odd : Token.ofText t = .error e ↔
    t.count '\'' % 2 = 1 ∧ e = .unclosedQuote t.length .quoted := by
  rw [Token.ofText_eq]
  cases h : ofText? t with
  | none =>
    have hodd := ofText?_eq_none_iff.1 h
    constructor
    · intro heq
      cases heq
      exact ⟨hodd, rfl⟩
    · rintro ⟨-, rfl⟩
      rfl
  | some ls =>
    have heven : ¬ t.count '\'' % 2 = 1 := by
      intro hodd
      rw [ofText?_eq_none_iff.2 hodd] at h
      cases h
    simp [heven]

theorem Token.exists_ofText_iff_even :
    (∃ ts, Token.ofText t = .ok ts) ↔ t.count '\'' % 2 = 0 := by
  constructor
  · rintro ⟨ts, hts⟩
    have hne : ¬ t.count '\'' % 2 = 1 := by
      intro hodd
      rw [Token.ofText_eq_error_iff_odd.2 ⟨hodd, rfl⟩] at hts
      cases hts
    omega
  · intro heven
    obtain ⟨ls, hls⟩ := exists_spells_of_even heven
    exact ⟨_, Token.ofText_eq_ok_iff.2 ⟨ls, hls, rfl⟩⟩

/-- Whether a cause is reported as a **lexical** one, with a position and a state. -/
def Error.LexicalAt (e : Error) (position : Int) (state : LexState) : Prop :=
  ∃ r, e.report? = some r ∧ r.topic = .lexical position state

theorem Error.lexicalAt_unclosedQuote (position : Nat) (state : LexState) :
    (Error.unclosedQuote position state).LexicalAt position state := ⟨_, rfl, rfl⟩

/-- What goes wrong with tokens is no lexical error. -/
theorem Slot.not_lexicalAt {ts : List Token} {position : Int} {state : LexState}
    (h : Slot.ofTokens config ts = .error e) : ¬ (e.withInput t).LexicalAt position state := by
  rintro ⟨r, hr, htopic⟩
  obtain ⟨token, reached, rfl | rfl⟩ := Slot.readFrom_error h
  · cases hr; cases htopic
  · cases hr; cases htopic

/-- **Lexical errors are odd numbers of quote marks.** Reading the tokens of a text fails
exactly when the number of its quote marks is odd, at the end of the text and inside a
literal. So does reading its slots fail with a lexical error, whatever else is wrong with
them. -/
theorem lexical_error_iff_odd (t : Text) :
    ((∃ e, Token.ofText t = .error e) ↔ t.count '\'' % 2 = 1) ∧
      (∀ e, Token.ofText t = .error e → e.LexicalAt t.length .quoted) ∧
      ((∃ ts, Token.ofText t = .ok ts) ↔ t.count '\'' % 2 = 0) ∧
      ∀ config : Config, (∃ e position state,
        Slot.ofText config t = .error e ∧ e.LexicalAt position state) ↔ t.count '\'' % 2 = 1 := by
  refine ⟨?_, ?_, Token.exists_ofText_iff_even, ?_⟩
  · constructor
    · rintro ⟨e, h⟩
      exact (Token.ofText_eq_error_iff_odd.1 h).1
    · intro hodd
      exact ⟨_, Token.ofText_eq_error_iff_odd.2 ⟨hodd, rfl⟩⟩
  · intro e h
    obtain ⟨-, rfl⟩ := Token.ofText_eq_error_iff_odd.1 h
    exact Error.lexicalAt_unclosedQuote t.length .quoted
  · intro config
    constructor
    · rintro ⟨e, position, state, h, hlexical⟩
      rcases Slot.ofText_eq_error_iff.1 h with htokens | ⟨tokens, -, cause, hcause, rfl⟩
      · exact (Token.ofText_eq_error_iff_odd.1 htokens).1
      · exact absurd hlexical (Slot.not_lexicalAt hcause)
    · intro hodd
      have htokens : Token.ofText t = .error (.unclosedQuote t.length .quoted) :=
        Token.ofText_eq_error_iff_odd.2 ⟨hodd, rfl⟩
      exact ⟨_, t.length, .quoted, Slot.ofText_eq_error_iff.2 (.inl htokens),
        Error.lexicalAt_unclosedQuote t.length .quoted⟩

/-- The open literal counts, although the comma at the start is an error too. -/
example : Slot.ofText .standard ", 'x".toList = .error (.unclosedQuote 4 .quoted) := rfl

end ProcCall
