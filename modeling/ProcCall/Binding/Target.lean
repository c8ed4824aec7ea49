import ProcCall.Binding

/-!
# Where each argument is bound

The parameter of every argument, said without an order of binding: a named argument
goes to the first declared parameter of its name, and the positional ones go to the
parameters that are left.

* `Binding.freeParams`: the parameters that are left for positional arguments.
* `Binding.target?`: the parameter of the argument with a given number.
* `Binding.Bindable`: the conditions under which all arguments are bound.
-/

namespace ProcCall.Binding

variable (config : Config) (declared : List Param) (slots : List Slot)

/-- The parameter that a named argument goes to. -/
def namedTarget? (s : Slot) : Option Param := resolve? config declared (s.name.getD [])

/-- The parameters that the named arguments go to. -/
def namedTargets : List (Option Param) :=
  (slots.filter (·.isNamed)).map (namedTarget? config declared)

/-- The parameters that are left for positional arguments: each declared parameter
once, without return values and without those of the named arguments. -/
def freeParams : List Param :=
  let named := namedTargets config declared slots
  (declared.filter fun p => !p.isReturnValue && !named.contains (some p)).eraseDups

/-- The number of positional arguments before the argument with number `i`. -/
def rank (i : Nat) : Nat := ((slots.take i).filter (!·.isNamed)).length

/-- The parameter of the argument with number `i`. -/
def target? (i : Nat) : Option Param :=
  match slots[i]? with
  | none => none
  | some s =>
    if s.isNamed then namedTarget? config declared s
    else (freeParams config declared slots)[rank slots i]?

/-- The conditions under which all arguments are bound. -/
structure Bindable : Prop where
  /-- Every named argument has a parameter of its name. -/
  known : ∀ s ∈ slots, s.isNamed → (namedTarget? config declared s).isSome
  /-- No two named arguments have one parameter. -/
  distinct : (namedTargets config declared slots).Nodup
  /-- There are enough parameters for the positional arguments. -/
  enough : (slots.filter (!·.isNamed)).length ≤ (freeParams config declared slots).length
  /-- Every value that is no variable is a literal. -/
  literal : ∀ s ∈ slots, config.isVariable s.value = false → ∃ l, Literal.ofText s.value = .ok l

end ProcCall.Binding
