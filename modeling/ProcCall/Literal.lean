import ProcCall.Double.Shortest
import ProcCall.Error
import ProcCall.Text.Case

/-!
# Literals

A value that is no variable is a literal: a quoted string, an integer, a decimal
number or `NULL`.

* `Literal.quote`: a string as a quoted literal.
* `Literal.ofText`: the literal that a value is.
-/

namespace ProcCall

/-- The value of a literal. -/
inductive Literal where
  | string (value : Text)
  | integer (value : Nat)
  | decimal (value : Double)
  | null
  deriving DecidableEq

namespace Literal

/-- A text with every quote mark written twice. -/
def double : Text → Text
  | [] => []
  | c :: rest => if c = '\'' then c :: c :: double rest else c :: double rest

/-- A string as a quoted literal. -/
def quote (value : Text) : Text := '\'' :: double value ++ ['\'']

/-- A text with every two neighbouring quote marks, from the left, written once. -/
def undouble : Text → Text
  | '\'' :: '\'' :: rest => '\'' :: undouble rest
  | c :: rest => c :: undouble rest
  | [] => []

/-- What stands between the quote marks of a quoted value. -/
def body? : Text → Option Text
  | '\'' :: rest => if rest.getLast? = some '\'' then some rest.dropLast else none
  | _ => none

/-- The digits before and after the point of a decimal number. -/
def decimalParts? (t : Text) : Option (Text × Text) :=
  let whole := t.takeWhile Char.isDigit
  match t.dropWhile Char.isDigit with
  | '.' :: fraction => if Digits.isNumeral fraction then some (whole, fraction) else none
  | _ => none

/-- The greatest integer that a literal may stand for. -/
def maxInteger : Nat := Nat.pow 2 63 - 1

/-- The literal that a value is. -/
def ofText (raw : Text) : Except Error Literal :=
  match body? raw with
  | some body => .ok (.string (undouble body))
  | none =>
    if Digits.isNumeral raw then
      if Digits.readLimit < raw.length then .error (.tooManyDigits raw.length)
      else if maxInteger < Digits.toNat raw then .error (.notLiteral raw)
      else .ok (.integer (Digits.toNat raw))
    else match decimalParts? raw with
      | some (whole, fraction) =>
        .ok (.decimal (.ofDecimal false ⟨Digits.toNat (whole ++ fraction), -fraction.length⟩))
      | none => if raw.toUpper = "NULL".toList then .ok .null else .error (.notLiteral raw)

/-- How decimal numbers are shown in messages: positional from `0.0001` to below
`10 ^ 16`, else with a signed exponent of two digits. -/
def numberStyle : FloatStyle := ⟨-3, 16, true, 2⟩

/-- A number as it is shown in messages. -/
def displayDouble (x : Double) : String :=
  if x.isInfinite then (if x.isNegative then "-inf" else "inf") else numberStyle.text x

/-- The literal as it is shown in messages. -/
def display : Literal → String
  | string value => value.display
  | integer value => toString value
  | decimal value => displayDouble value
  | null => "NULL"

end Literal

end ProcCall
