import ProcCall.Binding
import ProcCall.Name.Reader
import ProcCall.Slot.Reader

/-!
# Calls

A call text has words that are skipped, a procedure name and arguments, as in
`EXEC @r = [dbo].[Get User] 5, @name = 'x' OUTPUT`.

* `CallHead.ofText`: return variable, procedure name and argument text.
* `Call.ofText`: the call that a text is.
* `Call.text`: a call as it is written.
-/

namespace ProcCall

/-- A call text cut into its return variable, procedure name and argument text. -/
structure CallHead where
  returnVariable : Option Text
  procedureName : Text
  arguments : Text
  deriving DecidableEq

namespace CallHead

variable (config : Config)

/-- Whether every bracket that is opened in a name is closed: the last closing one
stands after the last opening one. -/
def isComplete (name : Text) : Bool :=
  match name.lastIndexOf? '[', name.lastIndexOf? ']' with
  | none, _ => true
  | some _, none => false
  | some i, some j => i < j

/-- Whether a word before the procedure name says nothing. -/
def isIdle (w : Text) : Bool := config.isExecKeyword w || w = ['=']

/-- Whether a word names the return variable. -/
def isReturnVariable (w : Text) : Bool := w.startsWithAny config.returnVariableMarks

/-- Whether a word may stand before the procedure name. -/
def isSkippable (w : Text) : Bool := isIdle config w || isReturnVariable config w

/-- The words of the procedure name: `taken`, and further ones until the name is
complete. -/
def nameWords (taken : List Text) : List Text → List Text
  | [] => taken
  | w :: rest =>
    let name := taken ++ [w]
    if isComplete (Text.unwords name) then name else nameWords name rest

/-- The return variable and the words of the procedure name; the last of several return
variables counts. -/
def walk (returnVariable : Option Text) : List Text → Option (Option Text × List Text)
  | [] => none
  | w :: rest =>
    if isIdle config w then walk returnVariable rest
    else if isReturnVariable config w then walk (some w) rest
    else some (returnVariable, nameWords [] (w :: rest))

/-- A call text cut into its parts. The arguments start after the first place where the
words of the name occur. -/
def ofText (t : Text) : Except Error CallHead :=
  match walk config none t.words with
  | none => .error (.noProcedureName t)
  | some (returnVariable, words) =>
    match t.afterWords? words with
    | none => .error (.nameNotFound (Text.unwords words))
    | some arguments => .ok ⟨returnVariable, Text.unwords words, arguments⟩

end CallHead

/-- A call of a stored procedure. -/
structure Call where
  procedureName : Text
  returnVariable : Option Text
  slots : List Slot
  /-- The configuration that the call was read with. -/
  config : Config
  deriving DecidableEq

namespace Call

/-- The call that a text is; `slotConfig` is the configuration for its arguments. -/
def ofText (config : Config) (t : Text) (slotConfig : Config := config) : Except Error Call := do
  let head ← CallHead.ofText config t
  let slots ← Slot.ofText slotConfig head.arguments
  .ok ⟨head.procedureName, head.returnVariable, slots, config⟩

/-- Whether two calls have the same name, return variable and slots. -/
def agrees (a b : Call) : Bool :=
  a.procedureName = b.procedureName && a.returnVariable = b.returnVariable && a.slots = b.slots

/-- The name of the procedure with its schema and catalog, as a reader of paths reads it. -/
def qualifiedName (c : Call) (reader : PathReader := NamePath.read) : Except Error ProcName :=
  ProcName.qualify reader c.config.dialect c.procedureName

/-- The binding of the call to declared parameters. -/
def bind (c : Call) (declared : List Param) : Except Error Binding :=
  Binding.ofSlots c.config declared c.slots

/-- The call without its arguments, as it is written. -/
def headText (c : Call) : Text :=
  match c.returnVariable with
  | some (v :: rest) => "EXEC ".toList ++ (v :: rest) ++ " = ".toList ++ c.procedureName
  | _ => "EXEC ".toList ++ c.procedureName

/-- The call as it is written. -/
def text (c : Call) : Text :=
  if c.slots.isEmpty then c.headText
  else c.headText ++ ' ' :: Text.commaList (c.slots.map Slot.text)

/-- The call as it is shown in messages. -/
def display (c : Call) : String :=
  "ParseResult(procedure_name=" ++ c.procedureName.display ++
    ", return_variable=" ++ Text.displayOption c.returnVariable ++
    ", slots=" ++ Text.enclose "[" "]" (c.slots.map Slot.display) ++ ")"

end Call

end ProcCall
