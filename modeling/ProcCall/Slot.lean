import ProcCall.Token

/-!
# Slots

A slot is one argument of a call: `5`, `@a OUTPUT`, `@name = 'x'`.

* `Slot.text`: a slot as it is written in a call.
-/

namespace ProcCall

/-- How an argument finds its parameter. -/
inductive SlotKind where
  | positional
  | named
  deriving DecidableEq

namespace SlotKind

/-- The name of a kind. -/
def name : SlotKind → String
  | positional => "positional"
  | named => "named"

/-- All kinds. -/
def all : List SlotKind := [positional, named]

/-- The label that it is known by outside. -/
def label : SlotKind → Label
  | positional => ⟨"SlotType", "POSITIONAL", "positional", true⟩
  | named => ⟨"SlotType", "NAMED", "named", true⟩

end SlotKind

/-- What a reader of arguments is in the middle of. Only `start` may be the last. -/
inductive SlotState where
  | start
  | positional
  | positionalOutput
  | expectValue
  | named
  | namedOutput
  deriving DecidableEq

namespace SlotState

/-- The name of a state. -/
def name : SlotState → String
  | start => "START"
  | positional => "POSITIONAL"
  | positionalOutput => "POSITIONAL_OUTPUT"
  | expectValue => "EXPECT_VALUE_FOR_NAMED"
  | named => "NAMED"
  | namedOutput => "NAMED_OUTPUT"

/-- All states. -/
def all : List SlotState :=
  [start, positional, positionalOutput, expectValue, named, namedOutput]

/-- The label that it is known by outside. -/
def label (s : SlotState) : Label := .symbol "ParserState" s.name

end SlotState

/-- One argument of a call. -/
structure Slot where
  kind : SlotKind
  value : Text
  name : Option Text
  isOutput : Bool
  deriving DecidableEq

namespace Slot

/-- An argument that is bound by its place. -/
def positional (value : Text) (isOutput : Bool) : Slot := ⟨.positional, value, none, isOutput⟩

/-- An argument that is bound by its name. -/
def named (name value : Text) (isOutput : Bool) : Slot := ⟨.named, value, some name, isOutput⟩

/-- Whether the argument is bound by its name. -/
def isNamed (s : Slot) : Bool := s.kind = .named

/-- The name as it is written; a named slot without one writes `None`. -/
def nameText (s : Slot) : Text := s.name.getD "None".toList

/-- The slot as it is written in a call. -/
def text (s : Slot) : Text :=
  (if s.isNamed then s.nameText ++ " = ".toList else []) ++ s.value ++
    if s.isOutput then " OUTPUT".toList else []

/-- The slot as it is shown in messages. -/
def display (s : Slot) : String :=
  "ParameterSlot." ++
    (if s.isNamed then "named(" ++ Text.displayOption s.name ++ ", " else "positional(") ++
    s.value.display ++ ", is_output=" ++ Text.displayFlag s.isOutput ++ ")"

end Slot

end ProcCall
