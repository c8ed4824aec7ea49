/-!
# Mappings of letters between cases

A case mapping is given by **runs** of letters, each sent to a run of the same
shape, and by **expansions** for the letters whose image is several letters.
All other characters stay as they are.

* `CaseMap.image`: the image of one character.
* `CaseMap.apply`: the image of a text, character by character.
-/

namespace ProcCall.Text

/-- Every `step`-th code point from `first` to `last`, sent to the one at the
same distance from `target`. -/
structure CaseRun where
  first : Nat
  last : Nat
  step : Nat
  target : Nat

/-- A case mapping. The runs are disjoint and in rising order. -/
structure CaseMap where
  runs : List CaseRun
  expansions : List (Nat × List Nat)

namespace CaseMap

/-- Where the runs send the code point `n`. -/
def shift : List CaseRun → Nat → Nat
  | [], n => n
  | run :: rest, n =>
    if n < run.first then n
    else if n ≤ run.last ∧ (n - run.first) % run.step = 0 then run.target + (n - run.first)
    else shift rest n

/-- The image of one character. -/
def image (m : CaseMap) (c : Char) : List Char :=
  match m.expansions.lookup c.toNat with
  | some codes => codes.map Char.ofNat
  | none => [Char.ofNat (shift m.runs c.toNat)]

/-- The image of a text. -/
def apply (m : CaseMap) (t : List Char) : List Char := t.flatMap m.image

end CaseMap

end ProcCall.Text
