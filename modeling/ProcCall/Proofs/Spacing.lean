import ProcCall.Proofs.Prefixes

/-!
# Blanks between tokens

A blank is remembered until the slot is closed, and it is asked for at one place only: a text
after a value may be an output keyword. So a blank may be put in or left out anywhere but between
a value and a text, and which blank it is never counts.

* `Slot.ofTokens_congr`: two parts with the same tokens around them.
* `Slot.ofTokens_blank`: one blank more or less.
* `Slot.not_blank_of_unexpectedToken`: no reading stops at a blank.
* `Slot.blanks_count_between_value_and_text`: all of it together.
-/

namespace ProcCall

/-- Whether a value at the end of some tokens **touches** a text at the start of others. -/
def Token.Touch (xs ys : List Token) : Prop :=
  (∃ value ∈ xs.getLast?, value.isValue = true) ∧ ∃ next ∈ ys.head?, next.kind = .text

namespace Slot

open Progress

variable {config : Config} {p q : Progress} {t w w' last : Token} {ts xs ys : List Token}
  {slots : List Slot} {state : SlotState} {input : Option Text}

/-- What is read after a blank, when another token follows. -/
theorem readFrom_blank (hw : w.kind = .blank) (last last' : Token) :
    readFrom config p last (w :: t :: ts) = readFrom config p.afterBlank last' (t :: ts) := by
  rw [readFrom_skip (step?_blank hw)]
  exact readFrom_congr rfl rfl

/-- Two lists of tokens with the same beginning give the same, when what follows the beginning
reads the same from wherever it leads. -/
theorem ofTokens_congr (h : ∀ slots q, Progress.start.run? config xs = some (slots, q) →
      ∀ last, readFrom config q last ts = readFrom config q last ys) :
    ofTokens config (xs ++ ts) = ofTokens config (xs ++ ys) := by
  unfold ofTokens
  cases hrun : Progress.start.run? config xs with
  | none =>
    obtain ⟨e, he⟩ := exists_error_of_run?_eq_none hrun
    rw [he, he]
  | some result =>
    obtain ⟨slots, q⟩ := result
    rw [readFrom_append hrun, readFrom_append hrun, h slots q hrun]

/-- After a beginning, a blank makes no difference to the next token unless the beginning ends
with a value and the token is a text. -/
theorem step?_afterBlank_of_not_touch (hrun : Progress.start.run? config xs = some (slots, q))
    (h : ¬ Token.Touch xs (t :: ts)) : q.afterBlank.step? config t = q.step? config t := by
  by_cases ht : t.kind = .text
  · have hlast : ∀ value ∈ xs.getLast?, value.isValue = false := by
      intro value hvalue
      cases hv : value.isValue with
      | false => rfl
      | true => exact absurd ⟨⟨value, hvalue, hv⟩, t, rfl, ht⟩ h
    rw [afterBlank_of_run? hrun hlast]
  · exact step?_afterBlank ht

/-- **A blank may be left out** except between a value and a text. -/
theorem ofTokens_blank (hw : w.kind = .blank) (hne : ys ≠ []) (h : ¬ Token.Touch xs ys) :
    ofTokens config (xs ++ w :: ys) = ofTokens config (xs ++ ys) := by
  obtain ⟨t, ts, rfl⟩ := List.exists_cons_of_ne_nil hne
  refine ofTokens_congr fun slots q hrun last => ?_
  rw [readFrom_blank hw last last]
  exact readFrom_congr (step?_afterBlank_of_not_touch hrun h) (state_afterBlank q)

/-- **One blank is as good as another** unless the tokens end with it. -/
theorem ofTokens_other_blank (hw : w.kind = .blank) (hw' : w'.kind = .blank) (hne : ys ≠ []) :
    ofTokens config (xs ++ w :: ys) = ofTokens config (xs ++ w' :: ys) := by
  obtain ⟨t, ts, rfl⟩ := List.exists_cons_of_ne_nil hne
  refine ofTokens_congr fun slots q _ last => ?_
  rw [readFrom_blank hw last last, readFrom_blank hw' last last]

/-- **No reading stops at a blank.** -/
theorem not_blank_of_unexpectedToken
    (h : ofTokens config ts = .error (.unexpectedToken t state input)) : t.kind ≠ .blank := by
  obtain ⟨_, _, heq | heq⟩ := readFrom_error h
  · cases heq
    obtain ⟨_, _, _, q, -, -, hstop, -⟩ := readFrom_eq_unexpectedToken_iff.1 h
    intro ht
    rw [step?_blank ht] at hstop
    cases hstop
  · cases heq

/-- **Blanks count between a value and a text only.** Anywhere else a blank before further tokens
may be put in or left out: the slots are the same, or the error tells the same token and the same
state. Which characters a blank has makes no difference to tokens that do not end with a blank,
and no blank is an unexpected token. -/
theorem blanks_count_between_value_and_text (config : Config) :
    (∀ (xs ys : List Token) (w : Token), ys ≠ [] → w.kind = .blank → ¬ Token.Touch xs ys →
      ofTokens config (xs ++ w :: ys) = ofTokens config (xs ++ ys)) ∧
      (∀ (xs ys : List Token) (w : Token) (value : Text), w.kind = .blank →
        (∀ t ∈ (xs ++ w :: ys).getLast?, t.kind ≠ .blank) →
        ofTokens config (xs ++ { w with value } :: ys) = ofTokens config (xs ++ w :: ys)) ∧
      ∀ (ts : List Token) (t : Token) (state : SlotState) (input : Option Text),
        ofTokens config ts = .error (.unexpectedToken t state input) → t.kind ≠ .blank := by
  refine ⟨fun xs ys w hne hw h => ofTokens_blank hw hne h, ?_, ?_⟩
  · intro xs ys w value hw hlast
    refine ofTokens_other_blank hw hw ?_
    rintro rfl
    exact hlast w (by simp) hw
  · exact fun ts t state input h => not_blank_of_unexpectedToken h

/-- A blank before the equals sign of a named slot. -/
theorem blanks_count_between_value_and_text_of_equals :
    let name : List Token := [⟨.text, "@n".toList, 0⟩]
    let blank : Token := ⟨.blank, "  ".toList, 2⟩
    let rest : List Token := [⟨.equals, ['='], 4⟩, ⟨.text, "5".toList, 5⟩, .atEnd 6]
    rest ≠ [] ∧ blank.kind = .blank ∧ ¬ Token.Touch name rest ∧
      ofTokens .standard (name ++ blank :: rest) = ofTokens .standard (name ++ rest) ∧
      ofTokens .standard (name ++ rest) = .ok [.named "@n".toList "5".toList false] := by
  intro name blank rest
  have htouch : ¬ Token.Touch name rest := by
    rintro ⟨-, next, hnext, hkind⟩
    cases hnext
    cases hkind
  have hne : rest ≠ [] := by simp [rest]
  have hdrop := (blanks_count_between_value_and_text .standard).1 name rest blank hne rfl htouch
  exact ⟨hne, rfl, htouch, hdrop, rfl⟩

/-- Between a value and a keyword the blank counts. -/
example :
    let value : Token := ⟨.text, "@x".toList, 0⟩
    let keyword : Token := ⟨.text, "OUT".toList, 3⟩
    ofTokens .standard [value, ⟨.blank, [' '], 2⟩, keyword, .atEnd 6] =
        .ok [.positional "@x".toList true] ∧
      ofTokens .standard [value, keyword, .atEnd 6] =
        .error (.unexpectedToken keyword .positional none) := ⟨rfl, rfl⟩

end Slot

end ProcCall
