/-!
# Digits

Natural numbers as digits, for every place where a number is read or written.

* `Digits.ofNat`: a number with at least a given number of digits.
* `Digits.toNat`: the number that decimal digits stand for.
-/

namespace ProcCall.Digits

/-- The digits of `n`, filled up with zeros to `width` digits. -/
def ofNat (base width n : Nat) : List Char :=
  let digits := Nat.toDigits base n
  List.replicate (width - digits.length) '0' ++ digits

/-- The number that decimal digits stand for. -/
def toNat (digits : List Char) : Nat :=
  digits.foldl (fun n c => 10 * n + (c.toNat - '0'.toNat)) 0

/-- Whether a text consists of decimal digits and is not empty. -/
def isNumeral (t : List Char) : Bool := !t.isEmpty && t.all Char.isDigit

/-- The greatest number of digits that are read as an integer. -/
def readLimit : Nat := 4300

end ProcCall.Digits
