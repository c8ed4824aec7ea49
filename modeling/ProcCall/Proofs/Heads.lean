import ProcCall.Call

/-!
# The head of a call

How a call text that starts with its procedure name is cut: the name is the first word, and
everything from the blank after it on is the argument text.

* `Text.words_append_blank`: words split at a blank.
* `CallHead.ofText_of_word`: the head of such a call.
-/

namespace ProcCall

namespace Text

variable {c : Char} {t w : Text}

/-- **Words split at a blank.** -/
theorem words_append_blank (hc : isBlank c = true) (a b : Text) :
    words (a ++ c :: b) = words a ++ words b := by
  unfold words
  rw [List.splitOnP_append_cons a b (by simpa using hc), List.filter_append]

/-- A text that is not empty and has no blank is one word. -/
theorem words_of_no_blank (hne : w ≠ []) (h : ∀ c ∈ w, isBlank c = false) : words w = [w] := by
  unfold words
  rw [List.splitOnP_eq_singleton h]
  simp [hne]

theorem isPrefixOf?_append (w t : Text) : w.isPrefixOf? (w ++ t) = some t := by
  induction w with
  | nil => rfl
  | cons c w ih =>
    show (if c == c then w.isPrefixOf? (w ++ t) else none) = some t
    rw [beq_self_eq_true, if_pos rfl, ih]

/-- A word at the start of a text is found there. -/
theorem afterWords?_append (w t : Text) : afterWords? [w] (w ++ t) = some t := by
  have hdrop : dropWords? [w] (w ++ t) = some t := isPrefixOf?_append w t
  cases h : w ++ t with
  | nil => rw [h] at hdrop; exact hdrop
  | cons c rest => rw [afterWords?, ← h, hdrop, Option.some_or]

end Text

namespace CallHead

variable {config : Config} {w : Text}

/-- **A call that starts with its procedure name**: a word that is not skipped and closes
its brackets. -/
theorem ofText_of_word (hne : w ≠ []) (hblank : ∀ c ∈ w, Text.isBlank c = false)
    (hskip : isSkippable config w = false) (hcomplete : isComplete w = true) (t : Text) :
    ofText config (w ++ ' ' :: t) = .ok ⟨none, w, ' ' :: t⟩ := by
  have hwords : Text.words (w ++ ' ' :: t) = w :: Text.words t := by
    rw [Text.words_append_blank rfl, Text.words_of_no_blank hne hblank, List.singleton_append]
  obtain ⟨hidle, hreturn⟩ := Bool.or_eq_false_iff.1 hskip
  have hname : nameWords [] (w :: Text.words t) = [w] := by
    simp [nameWords, Text.unwords, hcomplete]
  have hwalk : walk config none (w :: Text.words t) = some (none, [w]) := by
    simp [walk, hidle, hreturn, hname]
  unfold ofText
  rw [hwords, hwalk]
  simp only [Text.afterWords?_append]
  simp [Text.unwords]

end CallHead

end ProcCall
