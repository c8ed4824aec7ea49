import ProcCall.Config
import ProcCall.Token.Lexer

/-!
# Reading tokens as slots

A slot ends at a comma or at the end of the input. Whether it is named shows only at
an equals sign, so its first value is kept and becomes the name when one follows. An
output keyword counts only after a blank.

* `Progress`: what has been read of the slot in hand.
* `Slot.ofTokens`: the slots of a list of tokens.
* `Slot.ofText`: the slots of an argument text; errors show the text.
-/

namespace ProcCall

/-- What has been read of the slot in hand. `spaced` tells whether a blank has been
read after the value. -/
inductive Progress where
  | start
  | positional (value : Text) (spaced : Bool)
  | positionalOutput (value : Text)
  | expectValue (name : Text)
  | named (name value : Text) (spaced : Bool)
  | namedOutput (name value : Text)
  deriving DecidableEq

namespace Progress

/-- The state that errors tell. -/
def state : Progress → SlotState
  | start => .start
  | positional .. => .positional
  | positionalOutput .. => .positionalOutput
  | expectValue .. => .expectValue
  | named .. => .named
  | namedOutput .. => .namedOutput

/-- The slot in hand, if it may end here. -/
def slot? : Progress → Option Slot
  | positional value _ => some (.positional value false)
  | positionalOutput value => some (.positional value true)
  | named name value _ => some (.named name value false)
  | namedOutput name value => some (.named name value true)
  | _ => none

variable (config : Config) (t : Token)

/-- What has been read after one more token that does not close a slot. -/
def advance? : Progress → Option Progress
  | start =>
    if t.kind = .blank then some start
    else if t.isValue then some (positional t.value false)
    else none
  | positional value spaced =>
    if t.kind = .blank then some (positional value true)
    else if t.kind = .equals then some (expectValue value)
    else if t.kind = .text ∧ spaced ∧ config.isOutputKeyword t.value then
      some (positionalOutput value)
    else none
  | positionalOutput value => if t.kind = .blank then some (positionalOutput value) else none
  | expectValue name =>
    if t.kind = .blank then some (expectValue name)
    else if t.isValue then some (named name t.value false)
    else none
  | named name value spaced =>
    if t.kind = .blank then some (named name value true)
    else if t.kind = .text ∧ spaced ∧ config.isOutputKeyword t.value then
      some (namedOutput name value)
    else none
  | namedOutput name value => if t.kind = .blank then some (namedOutput name value) else none

/-- The step for one token: the slot that it closes, if any, and what has been read
after it. At the start the end of the input closes nothing. -/
def step? (p : Progress) : Option (Option Slot × Progress) :=
  if t.closes then
    match p.slot? with
    | some slot => some (some slot, start)
    | none => if p = start ∧ t.isEnd then some (none, start) else none
  else (p.advance? config t).map (none, ·)

end Progress

namespace Slot

/-- The slots of the tokens after `p` has been read; `last` is the token before them. -/
def readFrom (config : Config) (p : Progress) (last : Token) : List Token → Except Error (List Slot)
  | [] =>
    if p = .start then .ok [] else .error (.unexpectedEnd last p.state none)
  | t :: rest =>
    match p.step? config t with
    | none => .error (.unexpectedToken t p.state none)
    | some (slot, q) => (readFrom config q t rest).map (slot.toList ++ ·)

/-- The slots of a list of tokens. -/
def ofTokens (config : Config) (ts : List Token) : Except Error (List Slot) :=
  readFrom config .start ⟨.endOfInput, [], 0⟩ ts

/-- The slots of an argument text. -/
def ofText (config : Config) (t : Text) : Except Error (List Slot) := do
  let tokens ← Token.ofText t
  (ofTokens config tokens).mapError (Error.withInput t)

end Slot

end ProcCall
