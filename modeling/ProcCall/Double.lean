import ProcCall.Digits

/-!
# Double-precision numbers

A double is its 64 bits: a sign, eleven bits of exponent and 52 bits of fraction.
All arithmetic on it is exact arithmetic on natural numbers.

* `Double.ofRatio`: the double nearest to a quotient, a tie going to the even one.
* `Double.ofDecimal`: the double nearest to `digits · 10 ^ exponent`.
* `Double.parts`: the fraction `m` and the exponent `q` of a finite double `m · 2 ^ q`.
-/

namespace ProcCall

/-- A double-precision number, given by its bits. -/
structure Double where
  bits : UInt64
  deriving DecidableEq

/-- A decimal number `digits · 10 ^ exponent`. -/
structure Decimal where
  digits : Nat
  exponent : Int
  deriving DecidableEq

namespace Double

/-- The bits of infinity. -/
def infinityBits : Nat := 2047 * Nat.pow 2 52

/-- The natural number nearest to `num / den`, a tie going to the even one. -/
def roundRatio (num den : Nat) : Nat :=
  let m := num / den
  let r := num % den
  if den < 2 * r ∨ (den = 2 * r ∧ m % 2 = 1) then m + 1 else m

/-- Numerator and denominator of `(num / den) · base ^ e`. -/
def scaleRatio (base : Nat) (e : Int) (num den : Nat) : Nat × Nat :=
  (num * Nat.pow base e.toNat, den * Nat.pow base (-e).toNat)

/-- The greatest `e` with `2 ^ e ≤ num / den`, for positive `num` and `den`. -/
def binaryOrder (num den : Nat) : Int :=
  let e : Int := num.log2 - den.log2
  let (n, d) := scaleRatio 2 (-e) num den
  if n < d then e - 1 else e

/-- The bits of the double nearest to `num / den`, without a sign. The fraction has
53 bits unless the number is too small for that. -/
def magnitudeBits (num den : Nat) : Nat :=
  if num = 0 then 0
  else
    let q := max (binaryOrder num den - 52) (-1074)
    let (n, d) := scaleRatio 2 (-q) num den
    min ((q + 1074).toNat * Nat.pow 2 52 + roundRatio n d) infinityBits

/-- The double with the given sign and magnitude. -/
def ofMagnitude (negative : Bool) (magnitude : Nat) : Double :=
  ⟨UInt64.ofNat ((if negative then Nat.pow 2 63 else 0) + magnitude)⟩

/-- The double nearest to a quotient. -/
def ofRatio (negative : Bool) (num den : Nat) : Double :=
  ofMagnitude negative (magnitudeBits num den)

/-- The double nearest to a decimal number. Numbers that lie far outside the range
of doubles are not computed. -/
def ofDecimal (negative : Bool) (x : Decimal) : Double :=
  if x.digits = 0 then ofMagnitude negative 0
  else if 400 < x.exponent then ofMagnitude negative infinityBits
  else if x.exponent + (x.digits.log2 / 3 : Nat) < -400 then ofMagnitude negative 0
  else
    let (n, d) := scaleRatio 10 x.exponent x.digits 1
    ofRatio negative n d

/-- The bits without the sign. -/
def magnitude (x : Double) : Nat := x.bits.toNat % Nat.pow 2 63

/-- Whether the sign bit is set. -/
def isNegative (x : Double) : Bool := Nat.pow 2 63 ≤ x.bits.toNat

/-- Whether the double is an infinity. -/
def isInfinite (x : Double) : Bool := x.magnitude == infinityBits

/-- The fraction `m` and the exponent `q` of the finite double `m · 2 ^ q`. -/
def parts (x : Double) : Nat × Int :=
  let e : Nat := x.magnitude / Nat.pow 2 52
  let f : Nat := x.magnitude % Nat.pow 2 52
  if e = 0 then (f, -1074) else (Nat.pow 2 52 + f, e - 1075)

/-- The sign, numerator and denominator of a finite double. -/
def toRatio (x : Double) : Int × Nat :=
  let (m, q) := x.parts
  let (n, d) := scaleRatio 2 q m 1
  (if x.isNegative then -(n : Int) else n, d)

/-- The 16 hexadecimal digits of the bits. -/
def hexBits (x : Double) : String := String.ofList (Digits.ofNat 16 16 x.bits.toNat)

end Double

end ProcCall
