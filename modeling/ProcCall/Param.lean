import ProcCall.Label
import ProcCall.Text.Display

/-!
# Declared parameters

A procedure declares a list of parameters. An entry of the list may occur again
further on; that is one parameter, while two separate parameters may agree in
name, place and direction. The **tag** of a parameter tells these cases apart.
-/

namespace ProcCall

/-- Which way a value flows through a parameter. -/
inductive Direction where
  | input
  | output
  | inputOutput
  | returnValue
  deriving DecidableEq

namespace Direction

/-- The name of a direction. -/
def name : Direction → String
  | input => "input"
  | output => "output"
  | inputOutput => "input_output"
  | returnValue => "return_value"

/-- All directions. -/
def all : List Direction := [input, output, inputOutput, returnValue]

/-- The label that it is known by outside. -/
def label : Direction → Label
  | input => ⟨"ParameterDirection", "INPUT", "input", true⟩
  | output => ⟨"ParameterDirection", "OUTPUT", "output", true⟩
  | inputOutput => ⟨"ParameterDirection", "INPUT_OUTPUT", "input_output", true⟩
  | returnValue => ⟨"ParameterDirection", "RETURN_VALUE", "return_value", true⟩

end Direction

/-- A declared parameter. -/
structure Param where
  /-- Tells apart parameters that agree in all else. -/
  tag : Nat
  name : Text
  position : Int
  direction : Direction
  deriving DecidableEq

namespace Param

/-- Whether the parameter carries the return value of the procedure. -/
def isReturnValue (p : Param) : Bool := p.direction = .returnValue

/-- Whether a value flows back from the parameter. -/
def isOutput (p : Param) : Bool := p.direction ≠ .input

/-- Whether two parameters agree in name, place and direction. -/
def agrees (p q : Param) : Bool :=
  p.name = q.name && p.position = q.position && p.direction = q.direction

/-- The parameter as it is shown in messages. -/
def display (p : Param) : String :=
  "ParameterDescriptor(name=" ++ p.name.display ++ ", position=" ++ toString p.position ++
    ", direction=" ++ p.direction.label.display ++ ")"

end Param

end ProcCall
