import ProcCall.Double.Shortest
import ProcCall.Tree

/-!
# JSON values

A JSON value is a tree over scalars. Integers and doubles are kept apart, and fields
keep their order.

* `Scalar.equals`: numbers are equal when their values are, truth values being 0 and 1.
* `Json.encode`: a value as compact JSON text.
-/

namespace ProcCall

/-- A value without parts. -/
inductive Scalar where
  | null
  | flag (value : Bool)
  | int (value : Int)
  | double (value : Double)
  | text (value : Text)
  deriving DecidableEq

namespace Scalar

/-- The value of a number as an exact quotient; a truth value is 0 or 1. -/
def ratio? : Scalar → Option (Int × Nat)
  | flag value => some (if value then 1 else 0, 1)
  | int value => some (value, 1)
  | double value => if value.isInfinite then none else some value.toRatio
  | _ => none

/-- Whether two scalars are equal, numbers by value. -/
def equals (a b : Scalar) : Bool :=
  match a.ratio?, b.ratio? with
  | some (n, d), some (n', d') => n * d' == n' * d
  | _, _ => a = b

/-- Whether a scalar says something: it is not empty, zero, false or null. -/
def isTruthy : Scalar → Bool
  | null => false
  | flag value => value
  | int value => value ≠ 0
  | double value => value.magnitude ≠ 0
  | text value => !value.isEmpty

end Scalar

/-- A JSON value. -/
abbrev Json := Tree Scalar

namespace Json

/-- How doubles are written: positional from `0.00001` to below `10 ^ 16`, else with
an unsigned exponent as short as can be. -/
def numberStyle : FloatStyle := ⟨-4, 16, false, 1⟩

/-- One character of a string, escaped when it must be. -/
def escape (c : Char) : String :=
  if c = '"' then "\\\""
  else if c = '\\' then "\\\\"
  else if c = '\n' then "\\n"
  else if c = '\r' then "\\r"
  else if c = '\t' then "\\t"
  else if c.toNat = 8 then "\\b"
  else if c.toNat = 12 then "\\f"
  else if c.toNat < 32 then
    "\\u00" ++ (if c.toNat < 16 then "0" else "1") ++ String.ofList [Nat.digitChar (c.toNat % 16)]
  else c.toString

/-- A text as a JSON string. -/
def encodeText (t : Text) : String :=
  "\"" ++ t.foldl (fun shown c => shown ++ escape c) "" ++ "\""

/-- A scalar as JSON text. An infinity has no number and is written as null. -/
def encodeScalar : Scalar → String
  | .null => "null"
  | .flag value => if value then "true" else "false"
  | .int value => toString value
  | .double value => if value.isInfinite then "null" else numberStyle.text value
  | .text value => encodeText value

/-- Compact JSON without blanks. -/
def compact : Tree.Layout Scalar := ⟨encodeScalar, encodeText, ",", ":"⟩

/-- A value as compact JSON text. -/
def encode (j : Json) : String := j.render compact

end Json

end ProcCall
