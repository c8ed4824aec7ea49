import ProcCall.Double

/-!
# The shortest decimal of a double

The reals that round to a double form an interval around it. The shortest decimal
is taken from the coarsest grid of powers of ten with a point in that interval, and
of two such points it is the nearer one.

* `Double.shortest`: that decimal, for a finite double other than zero.
* `FloatStyle.text`: how digits and exponent are written out.
-/

namespace ProcCall

namespace Double

/-- The greatest `k` with `10 ^ k ≤ num / den`, for positive `num` and `den`. -/
def decimalOrder (num den : Nat) : Int :=
  let guess := binaryOrder num den * 30103 / 100000
  let fits (k : Int) : Bool := let (n, d) := scaleRatio 10 (-k) num den; d ≤ n
  if fits (guess + 1) then guess + 1 else if fits guess then guess else guess - 1

/-- An interval of quotients over one denominator. -/
structure Bounds where
  low : Nat
  value : Nat
  high : Nat
  den : Nat
  closed : Bool

/-- The quotients that round to the finite double `x`. Below a power of two the
neighbour is half as far away as above. -/
def bounds (x : Double) : Bounds :=
  let (m, q) := x.parts
  let below := if m = Nat.pow 2 52 ∧ -1074 < q then 1 else 2
  let unit := Nat.pow 2 (q - 2).toNat
  { low := (4 * m - below) * unit, value := 4 * m * unit, high := (4 * m + 2) * unit
    den := Nat.pow 2 (2 - q).toNat, closed := m % 2 = 0 }

/-- Whether `num / den` lies in the interval. -/
def Bounds.holds (b : Bounds) (num den : Nat) : Bool :=
  let n := num * b.den
  if b.closed then b.low * den ≤ n && n ≤ b.high * den else b.low * den < n && n < b.high * den

/-- The point of the grid `10 ^ k` that lies in the interval and is nearest to its
value; of two equally near ones, the even one. -/
def Bounds.gridPoint? (b : Bounds) (k : Int) : Option Nat :=
  let (n, d) := scaleRatio 10 (-k) b.value b.den
  let floor := n / d
  let inside (i : Nat) : Bool := let (n', d') := scaleRatio 10 k i 1; b.holds n' d'
  let nearer := roundRatio n d
  let other := if nearer = floor then floor + 1 else floor
  if inside nearer then some nearer else if inside other then some other else none

/-- The decimal without zeros at its end. -/
def dropZeros : Nat → Decimal → Decimal
  | 0, x => x
  | n + 1, x =>
    if x.digits ≠ 0 ∧ x.digits % 10 = 0 then dropZeros n ⟨x.digits / 10, x.exponent + 1⟩ else x

/-- The first grid with a point in the interval, from the order `k` of the value
downwards. -/
def Bounds.search (b : Bounds) : Nat → Int → Decimal
  | 0, k => ⟨0, k⟩
  | n + 1, k =>
    match b.gridPoint? k with
    | some i => if i = 0 then search b n (k - 1) else dropZeros 20 ⟨i, k⟩
    | none => search b n (k - 1)

/-- The shortest decimal that reads back as `x`. Eighteen grids are enough. -/
def shortest (x : Double) : Decimal :=
  let b := x.bounds
  b.search 20 (decimalOrder b.value b.den + 1)

end Double

/-- How the digits of a double are laid out. The **order** of a number is the place of
the point before its first digit: `0.5` has order 0 and `5.0` has order 1. -/
structure FloatStyle where
  /-- The least order that is written without an exponent. -/
  least : Int
  /-- The greatest order that is written without an exponent. -/
  greatest : Int
  /-- Whether a positive exponent has a plus sign. -/
  plus : Bool
  /-- The least number of digits of an exponent. -/
  exponentWidth : Nat

namespace FloatStyle

/-- The exponent after the letter `e`. -/
def exponentText (s : FloatStyle) (e : Int) : String :=
  let sign := if e < 0 then "-" else if s.plus then "+" else ""
  sign ++ String.ofList (Digits.ofNat 10 s.exponentWidth e.natAbs)

/-- A decimal other than zero, written out. -/
def decimalText (s : FloatStyle) (x : Decimal) : String :=
  let digits := Nat.toDigits 10 x.digits
  let order : Int := digits.length + x.exponent
  let zeros (n : Int) : List Char := List.replicate n.toNat '0'
  if order < s.least ∨ s.greatest < order then
    let (first, rest) := digits.splitAt 1
    let point := if rest.isEmpty then [] else ['.']
    String.ofList (first ++ point ++ rest) ++ "e" ++ s.exponentText (order - 1)
  else if order ≤ 0 then String.ofList (['0', '.'] ++ zeros (-order) ++ digits)
  else if 0 ≤ x.exponent then String.ofList (digits ++ zeros x.exponent ++ ['.', '0'])
  else
    let (whole, fraction) := digits.splitAt order.toNat
    String.ofList (whole ++ ['.'] ++ fraction)

/-- A finite double, written out. -/
def text (s : FloatStyle) (x : Double) : String :=
  let sign := if x.isNegative then "-" else ""
  sign ++ if x.magnitude = 0 then "0.0" else s.decimalText x.shortest

end FloatStyle

end ProcCall
