import ProcCall.Error

/-!
# Reading argument text as tokens

A reader looks at the characters of a text one after another and once more at its end. It
knows what it is in the middle of, where the token that it is in begins, where it is itself and
which tokens lie behind it. At each look it goes one character on, or it finds that the token
has ended and stays where it is, so the character after a token is looked at twice. A quote mark
inside a literal is written twice, so a literal ends at a quote mark that no other one follows.

* `Reading.step`: what the reader does at one look.
* `Reading.feed`: the looks at one character.
* `Reading.run`: a whole text.
* `Token.ofText`: the tokens of a text, with one for the end of the input.
-/

namespace ProcCall

/-- What a reader of argument text knows. -/
structure Reading where
  state : LexState := .fresh
  /-- Where the token begins that the reader is in. -/
  start : Nat := 0
  /-- Where the reader is. -/
  location : Nat := 0
  /-- The tokens behind the reader. -/
  tokens : List Token := []
  deriving DecidableEq

namespace Reading

/-- What a reader is in the middle of behind the first character of a token; nothing begins
at the end of the text. -/
def opening : Option Char → LexState
  | none => .fresh
  | some c =>
    if c = '\'' then .quoted
    else if c = ',' then .comma
    else if c = '=' then .equals
    else if Text.isBlank c then .blank
    else .text

/-- Whether a value without quotes ends before a character, or before the end of the text. -/
def endsValue : Option Char → Bool
  | none => true
  | some c => c = '\'' || c = ',' || c = '=' || Text.isBlank c

/-- The reader one character further on. -/
def advance (state : LexState) (r : Reading) : Reading :=
  { r with state, location := r.location + 1 }

/-- The reader behind a token that ends at `stop`. It is where it was. -/
def emit (t : Text) (kind : TokenKind) (stop : Nat) (r : Reading) : Reading :=
  { r with state := .fresh, tokens := r.tokens ++ [⟨kind, t.extract r.start stop, r.start⟩] }

/-- What the reader does at one look at a character of the text, or at its end. -/
def step (t : Text) (look : Option Char) (r : Reading) : Except Error Reading :=
  match r.state with
  | .fresh => .ok (advance (opening look) { r with start := r.location })
  | .text => .ok <| if endsValue look then r.emit t .text r.location else r.advance .text
  | .quoted =>
    match look with
    | some c => .ok <| r.advance (if c = '\'' then .quotedEnd else .quoted)
    | none => .error (.unclosedQuote r.location r.state)
  -- a second mark goes on with the literal
  | .quotedEnd =>
    .ok <| if look = some '\'' then r.advance .quoted else r.emit t .quoted r.location
  | .blank =>
    .ok <| if look.any Text.isBlank then r.advance .blank else r.emit t .blank r.location
  | .comma => .ok (r.emit t .comma (r.start + 1))
  | .equals => .ok (r.emit t .equals (r.start + 1))

/-- The looks at a character of the text, or at its end: one, and another one when a token
ended before it. -/
def feed (t : Text) (look : Option Char) (r : Reading) : Except Error Reading := do
  let next ← step t look r
  if next.location = r.location then step t look next else .ok next

/-- The reader from `r` on, at the start of `rest`. -/
def runFrom (t : Text) (r : Reading) : (rest : Text) → Except Error Reading
  | [] => feed t none r
  | c :: rest => do runFrom t (← feed t (some c) r) rest

/-- The reader behind the end of a text. -/
def run (t : Text) : Except Error Reading := runFrom t {} t

end Reading

/-- The tokens of an argument text. -/
def Token.ofText (t : Text) : Except Error (List Token) := do
  let r ← Reading.run t
  .ok (r.tokens ++ [.atEnd t.length])

end ProcCall
