import ProcCall.Proofs.Joining

/-!
# Tokens on both sides of a separator

A comma or an equals sign between two texts ends whatever token the first text ends with, a
literal among them, and what follows it is read as a text of its own. So the tokens of the whole
text are those of the two texts with the separator between them, and only places change.

* `Lexeme.map_moved_place`: lexemes placed further on are the same tokens in later places.
* `Token.getLast?_ofText`: the tokens of a text end with the end of the input.
* `Token.tokens_around_separator`: the tokens of the whole text.
-/

namespace ProcCall

variable {a b t : Text} {c : Char} {ts ts' : List Token}

namespace Token

/-- The token `n` places further on. -/
def moved (n : Int) (token : Token) : Token := { token with position := token.position + n }

end Token

/-- **Lexemes placed further on** are the same tokens, the end of the input among them, in later
places. -/
theorem Lexeme.map_moved_place (n position : Int) (ls : List Lexeme) :
    (place position ls).map (Token.moved n) = place (position + n) ls := by
  induction ls generalizing position with
  | nil => rfl
  | cons l rest ih =>
    have hnext : position + l.value.length + n = position + n + l.value.length := by omega
    rw [place, List.map_cons, ih, place, hnext]
    rfl

namespace Token

/-- The tokens of a text end with the end of the input. -/
theorem getLast?_ofText (h : ofText t = .ok ts) : ts.getLast? = some (.atEnd t.length) := by
  obtain ⟨ls, hls, rfl⟩ := ofText_eq_ok_iff.1 h
  rw [Lexeme.place_eq_placed, hls.text, Int.zero_add, List.getLast?_concat]

/-- **Reading composes at separators.** When two texts have tokens, the text with a comma or an
equals sign between them has those of the first without their end, the separator where the first
text ends, and those of the second, their end among them, moved behind it. -/
theorem tokens_around_separator (a b : Text) (c : Char) (ts ts' : List Token)
    (hc : c = ',' ∨ c = '=') (ha : ofText a = .ok ts) (hb : ofText b = .ok ts') :
    ts.getLast? = some (.atEnd a.length) ∧
      ofText (a ++ c :: b) =
        .ok (ts.dropLast ++ ⟨if c = ',' then .comma else .equals, [c], a.length⟩ ::
          ts'.map (moved (a.length + 1))) := by
  have hlast := getLast?_ofText ha
  obtain ⟨ls, hls, rfl⟩ := ofText_eq_ok_iff.1 ha
  obtain ⟨ls', hls', rfl⟩ := ofText_eq_ok_iff.1 hb
  have hkind : Lexeme.kindOf c = if c = ',' then .comma else .equals := by
    rcases hc with rfl | rfl
    · rfl
    · rfl
  have hseparator : Lexeme.kindOf c = .comma ∨ Lexeme.kindOf c = .equals := by
    rw [hkind]
    split
    · exact .inl rfl
    · exact .inr rfl
  have hjoined := Lexeme.ofText_around_separator hseparator hls hls'
  have hbody : (Lexeme.place 0 ls).dropLast = Lexeme.placed 0 ls := by
    rw [Lexeme.place_eq_placed, List.dropLast_concat]
  have hmoved : (Lexeme.place 0 ls').map (moved (a.length + 1)) =
      Lexeme.place (a.length + 1) ls' := by
    rw [Lexeme.map_moved_place, Int.zero_add]
  rw [hkind] at hjoined
  rw [hbody, hmoved]
  exact ⟨hlast, hjoined⟩

/-- A literal that ends right before an equals sign, and a text that starts with a separator. -/
theorem tokens_around_separator_of_literal :
    let a : Text := "x 'it''s'".toList
    let b : Text := "=, y".toList
    ∃ ts ts', ofText a = .ok ts ∧ ofText b = .ok ts' ∧ ts.getLast? = some (.atEnd 9) ∧
      ofText (a ++ '=' :: b) = .ok (ts.dropLast ++ ⟨.equals, ['='], 9⟩ :: ts'.map (moved 10)) := by
  intro a b
  let ts : List Token :=
    [⟨.text, "x".toList, 0⟩, ⟨.blank, " ".toList, 1⟩, ⟨.quoted, "'it''s'".toList, 2⟩, .atEnd 9]
  let ts' : List Token :=
    [⟨.equals, "=".toList, 0⟩, ⟨.comma, ",".toList, 1⟩, ⟨.blank, " ".toList, 2⟩,
      ⟨.text, "y".toList, 3⟩, .atEnd 4]
  have ha : ofText a = .ok ts := rfl
  have hb : ofText b = .ok ts' := rfl
  obtain ⟨hlast, hjoined⟩ := tokens_around_separator a b '=' ts ts' (.inr rfl) ha hb
  exact ⟨ts, ts', ha, hb, hlast, hjoined⟩

end Token

end ProcCall
