import ProcCall.Log.Record

/-!
# What a call leaves in the log

Every stage that succeeds is told to the log, also when a later stage fails.

* `Call.events`: what reading a call tells.
* `Prepared.events`: what reading and binding a call tells.
* `Prepared.outputEvents`: what reading the outputs tells.
-/

namespace ProcCall

/-- Something that a stage tells to the log. -/
inductive Event where
  | slotsRead (count : Nat)
  | callRead (call : Call)
  | callBound (call : Call) (declared : Nat)
  | outputMissing (variableName : Text) (param : Param)

namespace Event

/-- A record of the lowest level from a place in the program. -/
def debugRecord (file function message : String) (attributes : Table Json) : LogRecord where
  logger := ("sqlproc.core." ++ file).toList
  level := 10
  path := file.toList
  line := 0
  function := some function.toList
  template := message.toList
  created := .int 0
  milliseconds := .int 0
  attributes := attributes.map fun (name, j) => (name, Datum.ofJson j)
  exception := none

/-- The log record of an event. -/
def record : Event → LogRecord
  | slotsRead count =>
    debugRecord "slots" "parse_tokens" ("Parsed " ++ toString count ++ " parameter slot(s)") []
  | callRead call =>
    debugRecord "extractor" "parse"
      ("Parsed call to " ++ String.ofList call.procedureName ++ " with " ++
        toString call.slots.length ++ " slot(s)")
      (callFields call.procedureName call.returnVariable (some call.slots.length) none)
  | callBound call declared =>
    debugRecord "binder" "bind"
      ("Bound " ++ toString call.slots.length ++ " slot(s) of " ++
        String.ofList call.procedureName ++ " to " ++ toString declared ++
        " declared parameter(s)")
      (callFields call.procedureName call.returnVariable (some call.slots.length) (some declared))
  | outputMissing variableName param =>
    debugRecord "command" "read_outputs"
      ("No value returned for " ++ String.ofList param.name ++ " (bound to " ++
        String.ofList variableName ++ ")") []

end Event

/-- What reading a call tells. -/
def Call.events (config : Config) (t : Text) : List Event :=
  match Call.ofText config t with
  | .ok call => [.slotsRead call.slots.length, .callRead call]
  | .error _ => []

/-- What reading and binding a call tells. -/
def Prepared.events (config : Config) (declared : List Param) (t : Text) : List Event :=
  Call.events config t ++
    match Prepared.ofText config declared t with
    | .ok p => [.callBound p.call declared.length]
    | .error _ => []

/-- What reading the outputs tells. -/
def Prepared.outputEvents {α : Type} (p : Prepared) (returned : Table α) : List Event :=
  (p.missingOutputs returned).map fun (v, param) => .outputMissing v param

end ProcCall
