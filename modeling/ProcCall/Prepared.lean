import ProcCall.Call

/-!
# Prepared calls

A call that is read and bound is ready to be executed: its literals are the values to
set before, and its variables name the values to read after.

* `Prepared.ofText`: the prepared call of a text.
* `Prepared.outputParams`: the variables that a value flows back to.
* `Prepared.readOutputs`: the values that came back, under those variables.
-/

namespace ProcCall

/-- A call with its binding to the declared parameters. -/
structure Prepared where
  call : Call
  binding : Binding
  declared : List Param
  deriving DecidableEq

namespace Prepared

/-- The prepared call of a text. -/
def ofText (config : Config) (declared : List Param) (t : Text) : Except Error Prepared := do
  let call ← Call.ofText config t
  let binding ← call.bind declared
  .ok ⟨call, binding, declared⟩

/-- The parameter that carries the return value. -/
def returnParam? (p : Prepared) : Option Param := p.declared.find? (·.isReturnValue)

/-- The parameters that a value flows back from, under the variables of the call. The
return value goes to the return variable, whatever else is bound to that variable. -/
def outputParams (p : Prepared) : Table Param :=
  let bound : Table Param := p.binding.byVariable.filter (·.2.isOutput)
  match p.call.returnVariable, p.returnParam? with
  | some (v :: rest), some param => bound.put (v :: rest) param
  | _, _ => bound

/-- The values that came back, under the variables of the call. A parameter without a
returned value is left out. -/
def readOutputs {α : Type} (p : Prepared) (returned : Table α) : Table α :=
  p.outputParams.filterMap fun (v, param) =>
    (returned.get? param.name).map (v, ·)

/-- The outputs that have no returned value. -/
def missingOutputs {α : Type} (p : Prepared) (returned : Table α) : Table Param :=
  p.outputParams.filter fun pair => (returned.get? pair.2.name).isNone

/-- The prepared call as it is shown in messages. -/
def display (p : Prepared) : String := "PreparedCall(" ++ p.call.text.display ++ ")"

end Prepared

end ProcCall
