import ProcCall.Slot.Reader

/-!
# The grammar of slots

The ways to write a slot as tokens, and lists of slots with blanks and ends of input
between them.

* `SlotEnd`: what follows the value of a slot, up to the token that closes it.
* `SlotPhrase`: the tokens of one slot.
* `SlotPhrases`: the tokens of a list of slots.
* `Slot.Accepted`: the token lists that are read without an error.
-/

namespace ProcCall

variable (config : Config)

/-- Tokens that are all blanks. -/
def Token.AllBlank (ts : List Token) : Prop := ∀ t ∈ ts, t.kind = .blank

/-- Whether a token is an output keyword. -/
def Token.IsOutputKeyword (t : Token) : Prop :=
  t.kind = .text ∧ config.isOutputKeyword t.value = true

/-- What follows the value of a slot: blanks and a closing token. An output keyword may
stand among the blanks, with at least one before it. -/
inductive SlotEnd : List Token → (isOutput : Bool) → Prop
  | plain (blanks : List Token) (last : Token) :
      Token.AllBlank blanks → last.closes → SlotEnd (blanks ++ [last]) false
  | output (blanks : List Token) (keyword : Token) (others : List Token) (last : Token) :
      Token.AllBlank blanks → blanks ≠ [] → keyword.IsOutputKeyword config →
      Token.AllBlank others → last.closes →
      SlotEnd (blanks ++ keyword :: (others ++ [last])) true

/-- The tokens of one slot: a value and its end, with a name and an equals sign before it
when the slot is named. -/
inductive SlotPhrase : List Token → Slot → Prop
  | positional (value : Token) (rest : List Token) (isOutput : Bool) :
      value.isValue → SlotEnd config rest isOutput →
      SlotPhrase (value :: rest) (.positional value.value isOutput)
  | named (name : Token) (blanks : List Token) (equals : Token) (others : List Token)
      (value : Token) (rest : List Token) (isOutput : Bool) :
      name.isValue → Token.AllBlank blanks → equals.kind = .equals → Token.AllBlank others →
      value.isValue → SlotEnd config rest isOutput →
      SlotPhrase (name :: (blanks ++ equals :: (others ++ value :: rest)))
        (.named name.value value.value isOutput)

/-- The tokens of a list of slots. Blanks and ends of input may stand before each slot
and after the last one. -/
inductive SlotPhrases : List Token → List Slot → Prop
  | none : SlotPhrases [] []
  | skip (t : Token) (ts : List Token) (slots : List Slot) :
      t.kind = .blank ∨ t.kind = .endOfInput → SlotPhrases ts slots → SlotPhrases (t :: ts) slots
  | slot (phrase ts : List Token) (s : Slot) (slots : List Slot) :
      SlotPhrase config phrase s → SlotPhrases ts slots →
      SlotPhrases (phrase ++ ts) (s :: slots)

/-- The token lists that are read without an error. -/
def Slot.Accepted (ts : List Token) : Prop := ∃ slots, Slot.ofTokens config ts = .ok slots

end ProcCall
