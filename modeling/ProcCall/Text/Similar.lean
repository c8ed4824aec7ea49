import ProcCall.Text

/-!
# Similar texts

Two texts are the more alike the more of their characters stand in runs that both
have, in the same order.

* `Text.shared`: the number of characters in common runs.
* `Text.closest?`: the candidate that is most like a word, if one is like it at all.
-/

namespace ProcCall.Text

/-- The length of the common start of two texts. -/
def commonStart : Text → Text → Nat
  | a :: s, b :: t => if a = b then commonStart s t + 1 else 0
  | _, _ => 0

/-- A run of `length` characters that two texts have at the given positions. -/
structure Run where
  left : Nat
  right : Nat
  length : Nat

/-- The longest run of two texts, of several the first in `s` and then in `t`. -/
def longestRun (s t : Text) : Run :=
  (List.range s.length).foldl (fun best i =>
    (List.range t.length).foldl (fun best j =>
      let n := commonStart (s.drop i) (t.drop j)
      if best.length < n then ⟨i, j, n⟩ else best) best) ⟨0, 0, 0⟩

/-- The number of characters in the longest run, and in the longest runs on either side
of it. Each run takes one of `fuel`. -/
def sharedWithin : (fuel : Nat) → Text → Text → Nat
  | 0, _, _ => 0
  | fuel + 1, s, t =>
    let run := longestRun s t
    if run.length = 0 then 0
    else
      run.length + sharedWithin fuel (s.take run.left) (t.take run.right) +
        sharedWithin fuel (s.drop (run.left + run.length)) (t.drop (run.right + run.length))

/-- The number of characters in common runs. A run has at least one character. -/
def shared (s t : Text) : Nat := sharedWithin (s.length + 1) s t

/-- How much of two texts is shared: numerator and denominator of a quotient up to one. -/
def likeness (s t : Text) : Nat × Nat := (2 * shared s t, s.length + t.length)

/-- The candidate most like a word, of several the last in order. At least three fifths
of the two have to be shared. -/
def closest? (word : Text) (candidates : List Text) : Option Text :=
  let alike := candidates.filter fun c =>
    let (n, d) := likeness c word
    3 * d ≤ 5 * n
  alike.foldl (fun best c =>
    match best with
    | none => some c
    | some b =>
      let (n, d) := likeness c word
      let (n', d') := likeness b word
      if n' * d < n * d' ∨ (n' * d = n * d' ∧ String.ofList b < String.ofList c) then some c
      else some b) none

end ProcCall.Text
