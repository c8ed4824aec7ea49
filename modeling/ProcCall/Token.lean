import ProcCall.Label
import ProcCall.Text.Display

/-!
# Tokens

The argument text of a call is read as a list of tokens. A token knows its kind,
its characters and its position in the text.
-/

namespace ProcCall

/-- The kinds of token. -/
inductive TokenKind where
  | text
  | quoted
  | blank
  | comma
  | equals
  | endOfInput
  deriving DecidableEq

namespace TokenKind

/-- The name of a kind. -/
def name : TokenKind → String
  | text => "TEXT"
  | quoted => "QUOTED"
  | blank => "WHITESPACE"
  | comma => "COMMA"
  | equals => "EQUALS"
  | endOfInput => "EOF"

/-- All kinds. -/
def all : List TokenKind := [text, quoted, blank, comma, equals, endOfInput]

/-- The label that it is known by outside. -/
def label (k : TokenKind) : Label := .symbol "TokenType" k.name

end TokenKind

/-- What a reader of argument text is in the middle of. -/
inductive LexState where
  | fresh
  | text
  | quoted
  | quotedEnd
  | blank
  | comma
  | equals
  deriving DecidableEq

namespace LexState

/-- The name of a state. -/
def name : LexState → String
  | fresh => "DEFAULT"
  | text => "TEXT"
  | quoted => "QUOTED"
  | quotedEnd => "QUOTED_POTENTIAL_END"
  | blank => "WHITESPACE"
  | comma => "COMMA"
  | equals => "EQUALS"

/-- All states. -/
def all : List LexState := [fresh, text, quoted, quotedEnd, blank, comma, equals]

/-- The label that it is known by outside. -/
def label (s : LexState) : Label := .symbol "LexerState" s.name

end LexState

/-- A token: a kind, the characters it stands for and the position of the first. -/
structure Token where
  kind : TokenKind
  value : Text
  position : Int
  deriving DecidableEq

namespace Token

/-- The characters that the token at the end of the input stands for. -/
def endValue : Text := "[end of input]".toList

/-- The token at the end of an input of the given length. -/
def atEnd (length : Int) : Token := ⟨.endOfInput, endValue, length⟩

/-- Whether the token ends the input. -/
def isEnd (t : Token) : Bool := t.kind = .endOfInput

/-- Whether the token can be the value or the name of an argument. -/
def isValue (t : Token) : Bool := t.kind = .text || t.kind = .quoted

/-- Whether the token closes an argument. -/
def closes (t : Token) : Bool := t.kind = .comma || t.kind = .endOfInput

/-- The token as it is shown in messages. -/
def display (t : Token) : String :=
  "Token(" ++ t.kind.name ++ ", " ++ t.value.display ++ ", " ++ toString t.position ++ ")"

end Token

end ProcCall
