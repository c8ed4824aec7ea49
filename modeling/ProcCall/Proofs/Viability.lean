import ProcCall.Proofs.Prefixes

/-!
# The first impossible token

Whatever a reader of tokens has in hand can be completed: where a value is expected one may
follow, and after a value a comma may. So a reading stops at a token only when nothing can come of
the tokens up to it, and the tokens before it are still the beginning of a list that is accepted.
A reading that ends inside a slot ends too early, but not wrongly.

* `Progress.completion`: tokens that complete what has been read.
* `Slot.viable_iff_run?`: the beginnings of accepted lists.
* `Slot.exists_viable_of_unexpectedToken`, `Slot.completable_of_unexpectedEnd`: the two errors.
* `Slot.first_impossible_token_blamed`: both for every list of tokens.
-/

namespace ProcCall

variable {config : Config} {p q : Progress} {t last : Token} {ts : List Token}
  {slots : List Slot} {state : SlotState}

namespace Progress

/-- Tokens that **complete** what has been read: a value where one is expected, and a comma that
closes the slot in hand. -/
def completion : Progress → List Token
  | start => []
  | expectValue _ => [⟨.text, ['x'], 0⟩, ⟨.comma, [','], 1⟩]
  | _ => [⟨.comma, [','], 0⟩]

theorem completion_ne_nil (hp : p ≠ start) : p.completion ≠ [] := by
  cases p with
  | start => exact absurd rfl hp
  | positional | positionalOutput | expectValue | named | namedOutput => simp [completion]

end Progress

namespace Slot

open Progress

/-- **What has been read is completed** by its completion, under every configuration. -/
theorem exists_readFrom_completion (config : Config) (p : Progress) (last : Token) :
    ∃ slots, readFrom config p last p.completion = .ok slots := by
  cases p with
  | start => exact ⟨[], rfl⟩
  | positional value spaced => exact ⟨[.positional value false], rfl⟩
  | positionalOutput value => exact ⟨[.positional value true], rfl⟩
  | expectValue name => exact ⟨[.named name ['x'] false], rfl⟩
  | named name value spaced => exact ⟨[.named name value false], rfl⟩
  | namedOutput name value => exact ⟨[.named name value true], rfl⟩

variable (config) in
/-- Some tokens are **viable** when they are the beginning of a list that is accepted. -/
def Viable (ts : List Token) : Prop := ∃ more, Accepted config (ts ++ more)

/-- Tokens that have all been read are accepted with the completion of what is in hand. -/
theorem accepted_completion (h : Progress.start.run? config ts = some (slots, q)) :
    Accepted config (ts ++ q.completion) := by
  obtain ⟨others, hothers⟩ := exists_readFrom_completion config q
    (ts.getLast?.getD ⟨.endOfInput, [], 0⟩)
  refine ⟨slots ++ others, ?_⟩
  unfold ofTokens
  rw [readFrom_append h, hothers]
  rfl

/-- **The viable beginnings** are those for which the reader has a step at every token. -/
theorem viable_iff_run? :
    Viable config ts ↔ ∃ slots q, Progress.start.run? config ts = some (slots, q) := by
  constructor
  · rintro ⟨more, slots, h⟩
    obtain ⟨closed, q, -, hrun, -, -⟩ := readFrom_append_eq_ok_iff.1 h
    exact ⟨closed, q, hrun⟩
  · rintro ⟨slots, q, hrun⟩
    exact ⟨q.completion, accepted_completion hrun⟩

/-- An unexpected token makes every list that begins with the tokens up to it fail alike. -/
theorem exists_viable_of_unexpectedToken
    (h : ofTokens config ts = .error (.unexpectedToken t state none)) :
    ∃ i, ts[i]? = some t ∧ Viable config (ts.take i) ∧ ∀ more,
      ofTokens config (ts.take (i + 1) ++ more) = .error (.unexpectedToken t state none) := by
  obtain ⟨before, after, slots, q, rfl, hrun, hstop, rfl⟩ := readFrom_eq_unexpectedToken_iff.1 h
  have hbefore : (before ++ t :: after).take before.length = before := List.take_left
  have hupto : (before ++ t :: after).take (before.length + 1) = before ++ [t] := by
    rw [List.take_length_add_append]
    rfl
  refine ⟨before.length, by simp, ?_, fun more => ?_⟩
  · rw [hbefore]
    exact viable_iff_run?.2 ⟨slots, q, hrun⟩
  · rw [hupto, List.append_assoc]
    exact readFrom_of_stopped hrun hstop more

/-- **Where a reading ends inside a slot**: after the last token, with something in hand. -/
theorem readFrom_eq_unexpectedEnd_iff :
    readFrom config p last ts = .error (.unexpectedEnd t state none) ↔ ∃ slots q,
      p.run? config ts = some (slots, q) ∧ q ≠ .start ∧ q.state = state ∧
        ts.getLast?.getD last = t := by
  constructor
  · intro h
    cases hrun : p.run? config ts with
    | none =>
      obtain ⟨before, u, after, slots, q, rfl, hbefore, hstop⟩ := run?_eq_none_iff.1 hrun
      rw [readFrom_of_stopped hbefore hstop] at h
      cases h
    | some result =>
      obtain ⟨slots, q⟩ := result
      rw [readFrom_of_run? hrun] at h
      split at h
      · cases h
      · next hq =>
        cases h
        exact ⟨slots, q, rfl, hq, rfl, rfl⟩
  · rintro ⟨slots, q, hrun, hq, rfl, rfl⟩
    rw [readFrom_of_run? hrun, if_neg hq]

/-- Tokens that end inside a slot are accepted with at least one token more. -/
theorem completable_of_unexpectedEnd
    (h : ofTokens config ts = .error (.unexpectedEnd t state none)) :
    ts.getLast? = some t ∧ state ≠ .start ∧ ∃ next more, Accepted config (ts ++ next :: more) := by
  obtain ⟨slots, q, hrun, hq, rfl, hlast⟩ := readFrom_eq_unexpectedEnd_iff.1 h
  have hne : ts ≠ [] := by
    -- nothing is in hand before the first token
    rintro rfl
    cases hrun
    exact hq rfl
  have hstate : q.state ≠ .start := by
    intro hstart
    cases q with
    | start => exact hq rfl
    | positional | positionalOutput | expectValue | named | namedOutput => cases hstart
  obtain ⟨next, more, hmore⟩ := List.exists_cons_of_ne_nil (completion_ne_nil hq)
  refine ⟨?_, hstate, next, more, ?_⟩
  · rw [List.getLast?_eq_some_getLast hne, Option.getD_some] at hlast
    rw [List.getLast?_eq_some_getLast hne, hlast]
  · rw [← hmore]
    exact accepted_completion hrun

/-- **The first impossible token is blamed.** There are two errors. An unexpected token has some
number `i` in the list: the tokens before it are viable, those up to it are not, and every list that
begins with them stops at it in the same way. Where the input ends too early there are tokens, the
last of them is told with a state other than the start, and one or more further tokens make the
list one that is accepted. -/
theorem first_impossible_token_blamed (config : Config) (ts : List Token) :
    (∀ e, ofTokens config ts = .error e → ∃ t state,
      e = .unexpectedToken t state none ∨ e = .unexpectedEnd t state none) ∧
      (∀ t state, ofTokens config ts = .error (.unexpectedToken t state none) →
        ∃ i, ts[i]? = some t ∧ Viable config (ts.take i) ∧ ¬ Viable config (ts.take (i + 1)) ∧
          ∀ more, ofTokens config (ts.take (i + 1) ++ more) =
            .error (.unexpectedToken t state none)) ∧
      ∀ t state, ofTokens config ts = .error (.unexpectedEnd t state none) →
        ts.getLast? = some t ∧ state ≠ .start ∧
          ∃ next more, Accepted config (ts ++ next :: more) := by
  refine ⟨fun e h => readFrom_error h, ?_, fun t state h => completable_of_unexpectedEnd h⟩
  intro t state h
  obtain ⟨i, ht, hviable, hfinal⟩ := exists_viable_of_unexpectedToken h
  refine ⟨i, ht, hviable, ?_, hfinal⟩
  rintro ⟨more, slots, haccepted⟩
  rw [hfinal more] at haccepted
  cases haccepted

/-- The second of two words is impossible; a name with an equals sign only lacks its value. -/
theorem first_impossible_token_blamed_of_two :
    let blank : Token := ⟨.blank, [' '], 1⟩
    let word : Token := ⟨.text, "b".toList, 2⟩
    let equals : Token := ⟨.equals, ['='], 2⟩
    let words : List Token := [⟨.text, "a".toList, 0⟩, blank, word, .atEnd 3]
    let name : List Token := [⟨.text, "@a".toList, 0⟩, equals]
    ofTokens .standard words = .error (.unexpectedToken word .positional none) ∧
      (∃ i, words[i]? = some word ∧ Viable .standard (words.take i) ∧
        ¬ Viable .standard (words.take (i + 1))) ∧
      ofTokens .standard name = .error (.unexpectedEnd equals .expectValue none) ∧
      ∃ next more, Accepted .standard (name ++ next :: more) := by
  intro blank word equals words name
  have hwords : ofTokens .standard words = .error (.unexpectedToken word .positional none) := rfl
  have hname : ofTokens .standard name = .error (.unexpectedEnd equals .expectValue none) := rfl
  obtain ⟨i, hword, hviable, hnot, -⟩ :=
    (first_impossible_token_blamed .standard words).2.1 word .positional hwords
  obtain ⟨-, -, hmore⟩ :=
    (first_impossible_token_blamed .standard name).2.2 equals .expectValue hname
  exact ⟨hwords, ⟨i, hword, hviable, hnot⟩, hname, hmore⟩

end Slot

end ProcCall
