import ProcCall.Text

/-!
# Where words occur in a text

Words occur in a text where it can be cut so that they stand there with blanks between
neighbours, at the borders of words of the text or inside them. The words of the text itself
each have a place of their own.

* `Text.Spaced`: a text that consists of given words.
* `Text.OccursAt`: the words occur at an offset.
* `Text.pastWords`, `Text.wordOffset`: where a number of words of a text ends, and where the
  next one starts.
-/

namespace ProcCall.Text

/-- Whether a text is a word: not empty and without blanks. -/
def IsWord (w : Text) : Prop := w ≠ [] ∧ ∀ c ∈ w, isBlank c = false

/-- Whether all characters of a text are blanks. -/
def AllBlank (t : Text) : Prop := ∀ c ∈ t, isBlank c = true

/-- The texts that consist of the given words, with at least one blank between neighbours. -/
inductive Spaced : List Text → Text → Prop
  | one (w : Text) : Spaced [w] w
  | cons (w blanks : Text) (ws : List Text) (t : Text) :
      AllBlank blanks → blanks ≠ [] → Spaced ws t → Spaced (w :: ws) (w ++ (blanks ++ t))

/-- Whether the given words occur at an offset of a text, with blanks between neighbours. -/
def OccursAt (ws : List Text) (t : Text) (i : Nat) : Prop :=
  ∃ m, Spaced ws m ∧ m <+: t.drop i

/-- What follows the first `n` words of a text. -/
def pastWords : (n : Nat) → Text → Text
  | 0, t => t
  | n + 1, t => pastWords n ((stripStart t).dropWhile (!isBlank ·))

/-- The offset of the word that `n` others come before. -/
def wordOffset (n : Nat) (t : Text) : Nat := t.length - (stripStart (pastWords n t)).length

end ProcCall.Text
