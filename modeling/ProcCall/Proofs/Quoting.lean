import ProcCall.Proofs.Lossless

/-!
# Quoted strings

A string and its quoted form determine each other. The quoted form of a string is one token that
evaluates to the string, and a quoted token of any text is the quoted form of the string that it
evaluates to. No other token evaluates to a string.

* `Token.ofText_quote`: the tokens of a quoted string.
* `Literal.ofText_eq_string_iff`: which values are strings.
* `Literal.quoted_tokens_are_strings`: both directions.
-/

namespace ProcCall

variable {t raw : Text} {l : Lexeme} {token : Token} {tokens : List Token}

namespace Lexeme

/-- A lexeme that starts with a quote mark is quoted. -/
theorem WellFormed.kind_of_quote (h : WellFormed l) (hq : l.value.head? = some '\'') :
    l.kind = .quoted := by
  obtain ⟨c, others, hvalue, hkind⟩ := h.head
  rw [hvalue] at hq
  cases hq
  rw [← hkind]
  rfl

end Lexeme

namespace Token

/-- **The tokens of a quoted string** are the string and the end of the input. -/
theorem ofText_quote (s : Text) : ofText (Literal.quote s) =
    .ok [⟨.quoted, Literal.quote s, 0⟩, .atEnd (Literal.quote s).length] := by
  have hform : Lexeme.WellFormed ⟨.quoted, Literal.quote s⟩ :=
    Lexeme.wellFormed_quoted_iff.2 ⟨s, rfl⟩
  have hspells := Lexeme.spells_nil.cons hform (by simp)
  rw [List.append_nil] at hspells
  refine ofText_eq_ok_iff.2 ⟨_, hspells, ?_⟩
  rw [Lexeme.place, Lexeme.place, Int.zero_add]

/-- A token of a text that starts with a quote mark is quoted. -/
theorem kind_of_quote (h : ofText t = .ok tokens) (ht : token ∈ tokens)
    (hq : token.value.head? = some '\'') : token.kind = .quoted := by
  rcases wellFormed_or_atEnd h ht with hform | rfl
  · exact hform.kind_of_quote hq
  · -- the end of the input starts with a bracket
    cases hq

/-- A quoted token of a text is the quoted form of a string. -/
theorem exists_quote (h : ofText t = .ok tokens) (ht : token ∈ tokens)
    (hk : token.kind = .quoted) : ∃ s, token.value = Literal.quote s := by
  rcases wellFormed_or_atEnd h ht with hform | rfl
  · unfold lexeme at hform
    rw [hk] at hform
    exact Lexeme.wellFormed_quoted_iff.1 hform
  · cases hk

end Token

namespace Literal

/-- **Which values are strings**: those between quote marks. -/
theorem ofText_eq_string_iff {s : Text} :
    ofText raw = .ok (.string s) ↔ ∃ body, body? raw = some body ∧ undouble body = s := by
  unfold ofText
  cases body? raw with
  | some body => simp
  | none =>
    simp only [reduceCtorEq, false_and, exists_false, iff_false]
    split
    · split
      · simp
      · split <;> simp
    · split
      · simp
      · split <;> simp

theorem head_of_body? {body : Text} (h : body? raw = some body) : raw.head? = some '\'' := by
  unfold body? at h
  split at h
  · rfl
  · cases h

/-- **Quoted tokens are strings.** The quoted form of a string is read as one quoted token, and
evaluates to the string. Every quoted token of a text evaluates to a string of which it is the
quoted form, and no other token, in particular no text, evaluates to a string. -/
theorem quoted_tokens_are_strings :
    (∀ s : Text,
      Token.ofText (quote s) = .ok [⟨.quoted, quote s, 0⟩, .atEnd (quote s).length] ∧
        ofText (quote s) = .ok (.string s)) ∧
      ∀ (t : Text) (tokens : List Token) (token : Token),
        Token.ofText t = .ok tokens → token ∈ tokens →
        (token.kind = .quoted → ∃ s, ofText token.value = .ok (.string s) ∧
          quote s = token.value) ∧
        (token.kind ≠ .quoted → ∀ s, ofText token.value ≠ .ok (.string s)) := by
  refine ⟨fun s => ⟨Token.ofText_quote s, ofText_quote s⟩, ?_⟩
  intro t tokens token h ht
  constructor
  · intro hk
    obtain ⟨s, hs⟩ := Token.exists_quote h ht hk
    exact ⟨s, by rw [hs, ofText_quote], hs.symm⟩
  · intro hk s hs
    obtain ⟨body, hbody, -⟩ := ofText_eq_string_iff.1 hs
    exact hk (Token.kind_of_quote h ht (head_of_body? hbody))

/-- A quoted token and a text among the tokens of an argument text. -/
theorem quoted_tokens_are_strings_of_pair :
    let quoted : Token := ⟨.quoted, "'it''s'".toList, 0⟩
    let word : Token := ⟨.text, "x".toList, 8⟩
    ∃ tokens, Token.ofText "'it''s',x".toList = .ok tokens ∧ quoted ∈ tokens ∧ word ∈ tokens ∧
      (∃ s, ofText quoted.value = .ok (.string s) ∧ quote s = quoted.value) ∧
      ∀ s, ofText word.value ≠ .ok (.string s) := by
  intro quoted word
  let tokens : List Token := [quoted, ⟨.comma, [','], 7⟩, word, .atEnd 9]
  have h : Token.ofText "'it''s',x".toList = .ok tokens := rfl
  have hquoted : quoted ∈ tokens := by simp [tokens]
  have hword : word ∈ tokens := by simp [tokens]
  have hstring := (quoted_tokens_are_strings.2 _ _ _ h hquoted).1 rfl
  have hnone := (quoted_tokens_are_strings.2 _ _ _ h hword).2 (by decide)
  exact ⟨tokens, h, hquoted, hword, hstring, hnone⟩

end Literal

end ProcCall
