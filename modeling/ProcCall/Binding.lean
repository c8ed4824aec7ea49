import ProcCall.Config
import ProcCall.Literal
import ProcCall.Param
import ProcCall.Table

/-!
# Binding arguments to parameters

The named arguments are bound first, each to the first declared parameter of its
name. The positional ones then take the parameters that are left, in declared order
and without the return value. A value that is a variable is recorded under the
variable, and any other value is evaluated.

* `Binding.ofSlots`: the binding of the arguments of a call.
-/

namespace ProcCall

/-- The outcome of binding the arguments of a call to the declared parameters. -/
structure Binding where
  /-- The parameters of the positional arguments, in call order. -/
  positional : List Param
  /-- Every declared parameter under its name. -/
  declared : Table Param
  /-- The parameters whose value is a variable, under that variable. -/
  byVariable : Table Param
  /-- The parameter of each argument, in call order. -/
  params : List Param
  /-- The values of the parameters that are bound to literals, by parameter name. -/
  values : Table Literal
  deriving DecidableEq

namespace Binding

/-- What has been bound so far. -/
structure State where
  taken : List Param
  byVariable : Table Param
  values : Table Literal

variable (config : Config)

/-- The state after the value of an argument is bound to a parameter. -/
def State.assign (s : State) (value : Text) (p : Param) : Except Error State :=
  if config.isVariable value then
    .ok ⟨p :: s.taken, s.byVariable.put value p, s.values⟩
  else do
    let literal ← Literal.ofText value
    .ok ⟨p :: s.taken, s.byVariable, s.values.put p.name literal⟩

/-- The first declared parameter of a name. -/
def resolve? (declared : List Param) (name : Text) : Option Param :=
  declared.find? fun p => config.normalizeName p.name = config.normalizeName name

/-- Named arguments bound in call order: their parameters and the state after them. -/
def bindNamed (declared : List Param) (s : State) :
    List Slot → Except Error (List Param × State)
  | [] => .ok ([], s)
  | slot :: rest => do
    let name := slot.name.getD []
    match resolve? config declared name with
    | none => .error (.unknownParameter name)
    | some p =>
      if s.taken.contains p then .error (.repeatedParameter name)
      else
        let (params, last) ← bindNamed declared (← s.assign config slot.value p) rest
        .ok (p :: params, last)

/-- Whether a parameter is free for a positional argument. -/
def isFree (taken : List Param) (p : Param) : Bool := !p.isReturnValue && !taken.contains p

/-- Positional arguments bound in call order to the free ones of the parameters that
are left. -/
def bindPositional (s : State) : (left : List Param) → List Slot → Except Error (List Param × State)
  | _, [] => .ok ([], s)
  | left, slot :: rest =>
    match left.dropWhile (!isFree s.taken ·) with
    | [] => .error (.tooManyArguments slot.value)
    | p :: others => do
      let (params, last) ← bindPositional (← s.assign config slot.value p) others rest
      .ok (p :: params, last)

/-- The parameters of all arguments, in call order, from those of the named and those
of the positional ones. -/
def weave : List Slot → (named positional : List Param) → List Param
  | [], _, _ => []
  | slot :: rest, named, positional =>
    if slot.isNamed then named.head?.toList ++ weave rest named.tail positional
    else positional.head?.toList ++ weave rest named positional.tail

/-- The binding of the arguments of a call to the declared parameters. -/
def ofSlots (declared : List Param) (slots : List Slot) : Except Error Binding := do
  let (named, s) ← bindNamed config declared ⟨[], [], []⟩ (slots.filter (·.isNamed))
  let (positional, last) ← bindPositional config s declared (slots.filter (!·.isNamed))
  .ok {
    positional
    declared := Table.ofPairs (declared.map fun p => (p.name, p))
    byVariable := last.byVariable
    params := weave slots named positional
    values := last.values }

/-- The parameter of an argument, counted from the end when the number is negative. -/
def paramAt (b : Binding) (i : Int) : Except Error Param :=
  let j := if i < 0 then i + b.params.length else i
  match if j < 0 then none else b.params[j.toNat]? with
  | some p => .ok p
  | none => .error .slotOutOfRange

/-- Pairs as they are shown in messages. -/
def displayTable {α : Type} (display : α → String) (t : Table α) : String :=
  Text.enclose "\x7b" "\x7d" (t.map fun pair => pair.1.display ++ ": " ++ display pair.2)

/-- The binding as it is shown in messages. -/
def display (b : Binding) : String :=
  "BindingResult(positional_parameters=" ++ Text.enclose "[" "]" (b.positional.map Param.display) ++
    ", variable_parameters=" ++ displayTable Param.display b.byVariable ++
    ", values=" ++ displayTable Literal.display b.values ++ ")"

end Binding

end ProcCall
