import ProcCall.Token.Lexeme
import ProcCall.Token.Lexer

/-!
# Canonical token lists

What the tokens of a text are, said without reading the text: they spell it out, each
has the form of its kind, and no two neighbours could be one token.

* `Lexeme.EvenQuotes`: quote marks stand in runs of even length.
* `Lexeme.WellFormed`: the form of a lexeme of each kind.
* `Token.Canonical`: the conditions on a whole list of tokens.
-/

namespace ProcCall

namespace Lexeme

/-- Every longest run of quote marks has even length. -/
def EvenQuotes (t : Text) : Prop :=
  ∀ before run after, t = before ++ run ++ after → (∀ c ∈ run, c = '\'') →
    before.getLast? ≠ some '\'' → after.head? ≠ some '\'' → run.length % 2 = 0

/-- Whether a character may stand in a value without quotes. -/
def IsWordChar (c : Char) : Prop :=
  c ≠ '\'' ∧ c ≠ ',' ∧ c ≠ '=' ∧ Text.isBlank c = false

/-- The form of a lexeme. The end of the input is no lexeme. -/
def WellFormed (l : Lexeme) : Prop :=
  match l.kind with
  | .text => l.value ≠ [] ∧ ∀ c ∈ l.value, IsWordChar c
  | .quoted => ∃ body, l.value = '\'' :: body ++ ['\''] ∧ EvenQuotes body
  | .blank => l.value ≠ [] ∧ ∀ c ∈ l.value, Text.isBlank c = true
  | .comma => l.value = [',']
  | .equals => l.value = ['=']
  | .endOfInput => False

/-- Whether one lexeme may follow another: neighbours of one kind are separators. -/
def MayFollow (a b : Lexeme) : Prop :=
  a.kind = b.kind → a.kind = .comma ∨ a.kind = .equals

end Lexeme

namespace Token

/-- A token without its position. -/
def lexeme (t : Token) : Lexeme := ⟨t.kind, t.value⟩

/-- The characters that some tokens stand for. -/
def spelled (ts : List Token) : Text := ts.flatMap (·.value)

/-- The conditions on the tokens of a text: `body` and the end of the input. -/
structure CanonicalBody (t : Text) (body : List Token) : Prop where
  wellFormed : ∀ token ∈ body, token.lexeme.WellFormed
  spelled : spelled body = t
  placed : ∀ i (h : i < body.length), body[i].position = (Token.spelled (body.take i)).length
  separate : ∀ i (h : i + 1 < body.length), Lexeme.MayFollow body[i].lexeme body[i + 1].lexeme

/-- The tokens of a text, said without reading it. -/
def Canonical (t : Text) (ts : List Token) : Prop :=
  ∃ body, CanonicalBody t body ∧ ts = body ++ [.atEnd t.length]

end Token

end ProcCall
