import ProcCall.Token

/-!
# Lexemes

A **lexeme** is a token without its position. A text is cut into lexemes with a flag for
whether it begins inside a literal, and each lexeme is then placed where the ones before it
end. A quote mark inside a literal is written twice, so a literal ends at a quote mark that no
other one follows.

* `Lexeme.ofText?`: the lexemes of a text, unless a literal is left open.
* `Lexeme.place`: lexemes as tokens, with one for the end of the input.
-/

namespace ProcCall

/-- A token without a position. -/
structure Lexeme where
  kind : TokenKind
  value : Text
  deriving DecidableEq

namespace Lexeme

/-- The kind of the lexeme that a character outside a literal belongs to. -/
def kindOf (c : Char) : TokenKind :=
  if c = '\'' then .quoted
  else if c = ',' then .comma
  else if c = '=' then .equals
  else if Text.isBlank c then .blank
  else .text

/-- The character `c` put before some lexemes, as part of the first one when that is
of the given kind too. -/
def extend (kind : TokenKind) (c : Char) : List Lexeme → List Lexeme
  | ⟨k, value⟩ :: rest =>
    if k = kind then ⟨k, c :: value⟩ :: rest else ⟨kind, [c]⟩ :: ⟨k, value⟩ :: rest
  | [] => [⟨kind, [c]⟩]

/-- The lexemes of a text that begins inside a literal (`inside`) or outside. The
first lexeme of a text that begins inside is the rest of the literal. -/
def scan : (inside : Bool) → Text → Option (List Lexeme)
  | false, [] => some []
  | true, [] => none
  | true, '\'' :: '\'' :: rest =>
    (scan true rest).map (extend .quoted '\'' <| extend .quoted '\'' ·)
  | true, '\'' :: rest => (scan false rest).map (⟨.quoted, ['\'']⟩ :: ·)
  | true, c :: rest => (scan true rest).map (extend .quoted c)
  | false, c :: rest =>
    match kindOf c with
    | .quoted => (scan true rest).map (extend .quoted c)
    | .text => (scan false rest).map (extend .text c)
    | .blank => (scan false rest).map (extend .blank c)
    | kind => (scan false rest).map (⟨kind, [c]⟩ :: ·)

/-- The lexemes of a text, unless a literal is left open. -/
def ofText? (t : Text) : Option (List Lexeme) := scan false t

/-- Lexemes placed one after another from a position on, and the end of the input. -/
def place : (position : Int) → List Lexeme → List Token
  | position, [] => [.atEnd position]
  | position, ⟨kind, value⟩ :: rest =>
    ⟨kind, value, position⟩ :: place (position + value.length) rest

end Lexeme

end ProcCall
