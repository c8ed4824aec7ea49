import ProcCall.Proofs.Occurrences

/-!
# Runs of blanks as single spaces

The words of a text joined by single spaces are the text with its runs of blanks collapsed, unless
it has blanks at its ends. A text without those consists of its words, and wherever its words are
cut in two there is a blank in the text.

* `Text.collapse`: a text with a single space for each run of blanks.
* `Text.spaced_words`: a text consists of its words.
* `Text.collapse_of_spaced`: what words consist of, collapsed.
* `Text.Spaced.exists_blank_between`: words cut in two.
-/

namespace ProcCall.Text

variable {t m : Text} {ws : List Text}

/-- The text with a single space in place of each run of blanks. -/
def collapse : Text → Text
  | [] => []
  | c :: t =>
    if isBlank c then
      -- of a run of blanks the last one counts
      if t.head?.any isBlank then collapse t else ' ' :: collapse t
    else c :: collapse t

theorem collapse_append_of_no_blank {w : Text} (hw : ∀ c ∈ w, isBlank c = false) (t : Text) :
    collapse (w ++ t) = w ++ collapse t := by
  induction w with
  | nil => rfl
  | cons c w ih =>
    have hc : isBlank c = false := hw c List.mem_cons_self
    have hrest := ih fun d hd => hw d (List.mem_cons_of_mem _ hd)
    rw [List.cons_append, collapse, hc, hrest]
    rfl

theorem collapse_append_of_blanks {blanks : Text} (hb : AllBlank blanks) (hne : blanks ≠ [])
    (ht : ¬ Parted t) : collapse (blanks ++ t) = ' ' :: collapse t := by
  induction blanks with
  | nil => exact absurd rfl hne
  | cons c blanks ih =>
    have hc : isBlank c = true := hb c List.mem_cons_self
    have hrest : AllBlank blanks := fun d hd => hb d (List.mem_cons_of_mem _ hd)
    rw [List.cons_append, collapse, if_pos hc]
    cases blanks with
    | nil =>
      have hhead : t.head?.any isBlank = false := by
        cases t with
        | nil => rfl
        | cons d t =>
          cases hd : isBlank d with
          | false => simp [hd]
          | true => exact absurd (parted_cons hd t) ht
      rw [List.nil_append, hhead]
      rfl
    | cons d blanks =>
      have hhead : (d :: blanks ++ t).head?.any isBlank = true := by
        simp [hrest d List.mem_cons_self]
      rw [hhead, if_pos rfl]
      exact ih hrest (by simp)

/-- **What words consist of**: joined by single spaces they are the collapsed text. -/
theorem collapse_of_spaced (h : Spaced ws m) (hws : ∀ w ∈ ws, IsWord w) :
    collapse m = unwords ws := by
  induction h with
  | one w =>
    have hw := (hws w List.mem_cons_self).2
    have hcollapse := collapse_append_of_no_blank hw []
    rw [List.append_nil] at hcollapse
    rw [hcollapse]
    simp [collapse, unwords]
  | cons w blanks ws m hb hne h ih =>
    have htail : ∀ v ∈ ws, IsWord v := fun v hv => hws v (List.mem_cons_of_mem _ hv)
    have hnot : ¬ Parted m := by
      have hparted := h.not_parted htail []
      rwa [List.append_nil] at hparted
    rw [collapse_append_of_no_blank (hws w List.mem_cons_self).2,
      collapse_append_of_blanks hb hne hnot, ih htail]
    unfold unwords
    rw [List.intercalate_cons_of_ne_nil h.ne_nil, List.append_assoc]
    rfl

/-- **A text without blanks at its ends** consists of its words. -/
theorem spaced_words (hfirst : ¬ Parted t) (hlast : ∀ c ∈ t.getLast?, isBlank c = false) :
    Spaced (words t) t := by
  have hne : words t ≠ [] := by
    intro hnil
    rcases blank_or_word t with hblank | ⟨blanks, w, rest, rfl, hb, hw, hrest⟩
    · exact hfirst fun c hc => hblank c (List.mem_of_mem_head? hc)
    · rw [words_first hb hw hrest] at hnil
      cases hnil
  have hwords : words t = words t ++ [] := (List.append_nil _).symm
  obtain ⟨blanks, m, htext, hb, hm, -, hrest⟩ := exists_place hwords hne
  generalize pastWords (words t).length t = rest at htext hrest
  -- blanks at either end would be blanks of the text
  have hblanks : blanks = [] := by
    refine Classical.byContradiction fun hnil => hfirst ?_
    obtain ⟨c, others, rfl⟩ := List.exists_cons_of_ne_nil hnil
    rw [htext]
    exact parted_cons (hb c List.mem_cons_self) _
  have hnone : rest = [] := by
    refine Classical.byContradiction fun hnil => ?_
    rcases blank_or_word rest with hblank | ⟨gap, w, others, rfl, hgap, hw, hothers⟩
    · obtain ⟨init, c, rfl⟩ := (List.eq_nil_or_concat rest).resolve_left hnil
      have hc := hlast c (by rw [htext, ← List.append_assoc]; simp)
      rw [hblank c (by simp)] at hc
      cases hc
    · rw [words_first hgap hw hothers] at hrest
      cases hrest
  rw [hblanks, hnone, List.nil_append, List.append_nil] at htext
  conv_rhs => rw [htext]
  exact hm

/-- **Words cut in two**: what the first of them consist of ends before a blank. -/
theorem Spaced.exists_blank_between {a b : List Text} (h : Spaced ws m) (heq : ws = a ++ b)
    (ha : a ≠ []) (hb : b ≠ []) :
    ∃ before c after, m = before ++ c :: after ∧ isBlank c = true ∧ Spaced a before := by
  induction h generalizing a with
  | one w =>
    -- one word is not cut
    rcases List.singleton_eq_append_iff.1 heq with ⟨hnil, -⟩ | ⟨-, hnil⟩
    · exact absurd hnil ha
    · exact absurd hnil hb
  | cons w blanks ws m hblanks hne h ih =>
    obtain ⟨v, a, rfl⟩ := List.exists_cons_of_ne_nil ha
    obtain ⟨rfl, rfl⟩ := List.cons.inj heq
    by_cases hnil : a = []
    · subst hnil
      obtain ⟨c, gap, rfl⟩ := List.exists_cons_of_ne_nil hne
      exact ⟨w, c, gap ++ m, by simp, hblanks c List.mem_cons_self, .one w⟩
    · obtain ⟨before, c, after, rfl, hc, hbefore⟩ := ih rfl hnil
      exact ⟨w ++ (blanks ++ before), c, after, by simp, hc,
        .cons w blanks a before hblanks hne hbefore⟩

end ProcCall.Text
