/-!
# Sets of characters

A class of characters is a list of ranges of code points in rising order.

* `CharSet.contains`: membership; a range above the character ends the search.
-/

namespace ProcCall.Text

/-- Ranges `(first, last)` of code points, disjoint and in rising order. -/
abbrev CharSet := List (Nat × Nat)

namespace CharSet

/-- Whether the code point `n` lies in one of the ranges. -/
def covers : CharSet → Nat → Bool
  | [], _ => false
  | (first, last) :: rest, n =>
    if n < first then false else n ≤ last || covers rest n

/-- Whether the character `c` belongs to the set. -/
def contains (s : CharSet) (c : Char) : Bool := s.covers c.toNat

end CharSet

end ProcCall.Text
