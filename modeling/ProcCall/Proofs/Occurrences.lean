import ProcCall.Proofs.Heads
import ProcCall.Text.Occurrence
import Mathlib.Data.List.Basic
import Mathlib.Data.List.TakeWhile

/-!
# Words and their occurrences

A text is cut word by word: blanks, the first word, and a rest that is empty or starts with a
blank. So words that follow each other in a text have a place of their own in it, and the
search for words finds the first offset at which they occur, there or before.

* `words_cons_iff`: the first word of a text.
* `exists_place`: the place of words that follow each other in a text.
* `dropWords?_eq_some_iff`, `afterWords?_eq_some_iff`: what the search finds.
* `Spaced.ends_before`: an earlier occurrence of words ends before the last of them starts.
-/

namespace ProcCall.Text

variable {c : Char} {t w rest blanks m : Text} {ws skipped others : List Text} {i n : Nat}

/-! ## Words of a text -/

theorem words_nil : words [] = [] := rfl

theorem words_cons_blank (hc : isBlank c = true) (t : Text) : words (c :: t) = words t :=
  words_append_blank hc [] t

theorem words_append_of_allBlank (hb : AllBlank blanks) (t : Text) :
    words (blanks ++ t) = words t := by
  induction blanks with
  | nil => rfl
  | cons c blanks ih =>
    rw [List.cons_append, words_cons_blank (hb c List.mem_cons_self)]
    exact ih fun d hd => hb d (List.mem_cons_of_mem _ hd)

/-- Whether a text is empty or starts with a blank, so that a word may end before it. -/
def Parted (t : Text) : Prop := ∀ c ∈ t.head?, isBlank c = true

theorem parted_nil : Parted [] := by
  intro c hc; cases hc

theorem parted_cons (hc : isBlank c = true) (t : Text) : Parted (c :: t) := by
  rintro _ ⟨⟩
  exact hc

theorem words_append_of_parted (hw : IsWord w) (ht : Parted t) :
    words (w ++ t) = w :: words t := by
  cases t with
  | nil => rw [List.append_nil, words_of_no_blank hw.1 hw.2]; rfl
  | cons c t =>
    have hc : isBlank c = true := ht c rfl
    rw [words_append_blank hc, words_of_no_blank hw.1 hw.2, words_cons_blank hc]
    rfl

theorem IsWord.not_parted (hw : IsWord w) (t : Text) : ¬ Parted (w ++ t) := by
  intro h
  obtain ⟨c, others, rfl⟩ := List.exists_cons_of_ne_nil hw.1
  have hc : isBlank c = true := h c rfl
  rw [hw.2 c List.mem_cons_self] at hc
  cases hc

theorem stripStart_append (hb : AllBlank blanks) (ht : ¬ Parted t) :
    stripStart (blanks ++ t) = t := by
  unfold stripStart
  rw [List.dropWhile_append_of_pos hb]
  cases t with
  | nil => rfl
  | cons c t =>
    refine List.dropWhile_cons_of_neg fun hc => ht ?_
    rintro _ ⟨⟩
    exact hc

/-- **A text is blank or starts with a word.** -/
theorem blank_or_word (t : Text) : AllBlank t ∨ ∃ blanks w rest,
    t = blanks ++ (w ++ rest) ∧ AllBlank blanks ∧ IsWord w ∧ Parted rest := by
  induction t with
  | nil => exact .inl (by intro c hc; cases hc)
  | cons c t ih =>
    cases hc : isBlank c with
    | true =>
      rcases ih with hblank | ⟨blanks, w, rest, rfl, hb, hw, hrest⟩
      · exact .inl (List.forall_mem_cons.2 ⟨hc, hblank⟩)
      · exact .inr ⟨c :: blanks, w, rest, rfl, List.forall_mem_cons.2 ⟨hc, hb⟩, hw, hrest⟩
    | false =>
      -- the word is the longest piece without a blank
      refine .inr ⟨[], c :: t.takeWhile (!isBlank ·), t.dropWhile (!isBlank ·), ?_, ?_,
        ⟨by simp, List.forall_mem_cons.2 ⟨hc, fun d hd => ?_⟩⟩, fun d hd => ?_⟩
      · simp [List.takeWhile_append_dropWhile]
      · intro c hc; cases hc
      · simpa using List.mem_takeWhile_imp hd
      · have hd' := List.head?_dropWhile_not (!isBlank ·) t
        rw [Option.mem_def.1 hd] at hd'
        simpa using hd'

theorem words_first (hb : AllBlank blanks) (hw : IsWord w) (hr : Parted rest) :
    words (blanks ++ (w ++ rest)) = w :: words rest := by
  rw [words_append_of_allBlank hb, words_append_of_parted hw hr]

theorem pastWords_first (hb : AllBlank blanks) (hw : IsWord w) (hr : Parted rest) :
    pastWords (n + 1) (blanks ++ (w ++ rest)) = pastWords n rest := by
  have hdrop : (w ++ rest).dropWhile (!isBlank ·) = rest := by
    rw [List.dropWhile_append_of_pos (by simpa using hw.2)]
    cases rest with
    | nil => rfl
    | cons c rest => rw [List.dropWhile_cons_of_neg (by simp [hr c rfl])]
  rw [pastWords, stripStart_append hb (hw.not_parted rest), hdrop]

theorem pastWords_add (n k : Nat) (t : Text) :
    pastWords (n + k) t = pastWords k (pastWords n t) := by
  induction n generalizing t with
  | zero => rw [Nat.zero_add]; rfl
  | succ n ih => rw [Nat.succ_add, pastWords, ih]; rfl

/-- **The first word of a text.** -/
theorem words_cons_iff : words t = w :: ws ↔ ∃ blanks rest, t = blanks ++ (w ++ rest) ∧
    AllBlank blanks ∧ IsWord w ∧ Parted rest ∧ words rest = ws := by
  constructor
  · intro h
    rcases blank_or_word t with hblank | ⟨blanks, v, rest, rfl, hb, hv, hrest⟩
    · have hnone := words_append_of_allBlank hblank []
      rw [List.append_nil, h, words_nil] at hnone
      cases hnone
    · rw [words_first hb hv hrest] at h
      obtain ⟨rfl, rfl⟩ := List.cons.inj h
      exact ⟨blanks, rest, rfl, hb, hv, hrest, rfl⟩
  · rintro ⟨blanks, rest, rfl, hb, hw, hrest, rfl⟩
    exact words_first hb hw hrest

theorem isWord_of_mem_words (h : w ∈ words t) : IsWord w := by
  generalize hws : words t = ws at h
  induction ws generalizing t with
  | nil => cases h
  | cons v ws ih =>
    obtain ⟨blanks, rest, -, -, hv, -, hrest⟩ := words_cons_iff.1 hws
    rcases List.mem_cons.1 h with rfl | h
    · exact hv
    · exact ih hrest h

/-! ## The place of words -/

theorem Spaced.ne_nil (h : Spaced ws m) : ws ≠ [] := by
  cases h <;> simp

theorem Spaced.not_parted (h : Spaced ws m) (hws : ∀ w ∈ ws, IsWord w) (t : Text) :
    ¬ Parted (m ++ t) := by
  cases h with
  | one => exact (hws m List.mem_cons_self).not_parted t
  | cons w blanks ws m hb hne h =>
    rw [List.append_assoc]
    exact (hws w List.mem_cons_self).not_parted _

/-- The words that a text consists of are its words. -/
theorem words_spaced (h : Spaced ws m) (hws : ∀ w ∈ ws, IsWord w) (ht : Parted t) :
    words (m ++ t) = ws ++ words t := by
  induction h with
  | one w => exact words_append_of_parted (hws w List.mem_cons_self) ht
  | cons w blanks ws m hb hne h ih =>
    obtain ⟨c, gap, rfl⟩ := List.exists_cons_of_ne_nil hne
    have hparted : Parted (c :: gap ++ (m ++ t)) := parted_cons (hb c List.mem_cons_self) _
    rw [List.append_assoc, List.append_assoc,
      words_append_of_parted (hws w List.mem_cons_self) hparted, words_append_of_allBlank hb,
      ih fun v hv => hws v (List.mem_cons_of_mem _ hv)]
    rfl

theorem spaced_unwords (hne : ws ≠ []) : Spaced ws (unwords ws) := by
  unfold unwords
  induction ws with
  | nil => exact absurd rfl hne
  | cons w ws ih =>
    by_cases hws : ws = []
    · subst hws
      simpa using Spaced.one w
    · rw [List.intercalate_cons_of_ne_nil hws, List.append_assoc]
      exact .cons w [' '] ws _ (List.forall_mem_singleton.2 rfl) (by simp) (ih hws)

/-- Where a word may end, blanks separate it from the next words. -/
theorem Parted.ne_nil (h : Parted (blanks ++ t)) (ht : ¬ Parted t) : blanks ≠ [] := by
  rintro rfl
  exact ht h

/-- **Words that follow each other at the start of a text** have their place there. -/
theorem exists_place (h : words t = ws ++ others) (hne : ws ≠ []) : ∃ blanks m,
    t = blanks ++ (m ++ pastWords ws.length t) ∧ AllBlank blanks ∧ Spaced ws m ∧
      Parted (pastWords ws.length t) ∧ words (pastWords ws.length t) = others := by
  induction ws generalizing t with
  | nil => exact absurd rfl hne
  | cons w ws ih =>
    obtain ⟨blanks, rest, rfl, hb, hw, hrest, hwords⟩ := words_cons_iff.1 h
    rw [List.length_cons, pastWords_first hb hw hrest]
    by_cases hws : ws = []
    · subst hws
      exact ⟨blanks, w, rfl, hb, .one w, hrest, hwords⟩
    · obtain ⟨gap, m, heq, hgap, hm, hparted, hothers⟩ := ih hwords hws
      have hisWord : ∀ v ∈ ws, IsWord v := fun v hv =>
        isWord_of_mem_words (t := rest) (by rw [hwords]; exact List.mem_append_left _ hv)
      have hgapne : gap ≠ [] := by
        rw [heq] at hrest
        exact hrest.ne_nil (hm.not_parted hisWord _)
      refine ⟨blanks, w ++ (gap ++ m), ?_, hb, .cons w gap ws m hgap hgapne hm, hparted, hothers⟩
      conv_lhs => rw [heq]
      simp only [List.append_assoc]

/-- **Words that follow others in a text**: what comes before their place is blank, or ends
with a blank when there are words in it. -/
theorem exists_place_after (h : words t = skipped ++ (ws ++ others)) (hne : ws ≠ []) :
    ∃ before m, t = before ++ (m ++ pastWords (skipped.length + ws.length) t) ∧
      before.length = wordOffset skipped.length t ∧ Spaced ws m ∧
      (skipped = [] ∧ AllBlank before ∨
        skipped ≠ [] ∧ ∃ lead c, before = lead ++ [c] ∧ isBlank c = true) := by
  have hws : ∀ w ∈ ws, IsWord w := fun w hw =>
    isWord_of_mem_words (t := t) (by rw [h]; simp [hw])
  -- what comes before, with the blanks up to the words
  obtain ⟨start, hstart, hparted, hwords⟩ : ∃ start,
      t = start ++ pastWords skipped.length t ∧
      (skipped = [] ∧ start = [] ∨ skipped ≠ [] ∧ Parted (pastWords skipped.length t)) ∧
      words (pastWords skipped.length t) = ws ++ others := by
    by_cases hs : skipped = []
    · subst hs
      exact ⟨[], rfl, .inl ⟨rfl, rfl⟩, h⟩
    · obtain ⟨blanks, m, heq, -, -, hparted, hwords⟩ := exists_place h hs
      exact ⟨blanks ++ m, by rw [List.append_assoc]; exact heq, .inr ⟨hs, hparted⟩, hwords⟩
  obtain ⟨gap, m, heq, hgap, hm, -, -⟩ := exists_place hwords hne
  rw [← pastWords_add] at heq
  have hnot := hm.not_parted hws (pastWords (skipped.length + ws.length) t)
  have htext : t = (start ++ gap) ++ (m ++ pastWords (skipped.length + ws.length) t) := by
    rw [List.append_assoc, ← heq]; exact hstart
  refine ⟨start ++ gap, m, htext, ?_, hm, ?_⟩
  · have hlength := congrArg List.length htext
    unfold wordOffset
    rw [heq, stripStart_append hgap hnot]
    simp only [List.length_append] at hlength ⊢
    omega
  · rcases hparted with ⟨hs, rfl⟩ | ⟨hs, hparted⟩
    · exact .inl ⟨hs, hgap⟩
    · rw [heq] at hparted
      obtain ⟨lead, c, rfl⟩ := (List.eq_nil_or_concat gap).resolve_left (hparted.ne_nil hnot)
      exact .inr ⟨hs, start ++ lead, c, by simp, hgap c (by simp)⟩

/-! ## The search for words -/

/-- The search at one place finds the words that stand there. -/
theorem dropWords?_of_spaced (hws : ∀ w ∈ ws, IsWord w) (h : Spaced ws m) (rest : Text) :
    dropWords? ws (m ++ rest) = some rest := by
  induction h with
  | one w => exact isPrefixOf?_append w rest
  | cons w blanks ws m hb hne h ih =>
    have htail : ∀ v ∈ ws, IsWord v := fun v hv => hws v (List.mem_cons_of_mem _ hv)
    obtain ⟨c, gap, rfl⟩ := List.exists_cons_of_ne_nil hne
    have hgap : AllBlank gap := fun d hd => hb d (List.mem_cons_of_mem _ hd)
    have hassoc : w ++ (c :: gap ++ m) ++ rest = w ++ c :: (gap ++ (m ++ rest)) := by simp
    rw [dropWords?, hassoc, isPrefixOf?_append]
    · simp only
      rw [if_pos (hb c List.mem_cons_self), stripStart_append hgap (h.not_parted htail rest),
        ih htail]
    · exact h.ne_nil

theorem spaced_of_dropWords? (hne : ws ≠ []) (h : dropWords? ws t = some rest) :
    ∃ m, Spaced ws m ∧ t = m ++ rest := by
  induction ws generalizing t with
  | nil => exact absurd rfl hne
  | cons w ws ih =>
    cases ws with
    | nil => exact ⟨w, .one w, (List.isPrefixOf?_eq_some_iff_append_eq.1 h).symm⟩
    | cons v ws =>
      rw [dropWords?] at h
      · split at h
        · next c tail hw =>
          split at h
          · next hc =>
            obtain ⟨m, hm, htail⟩ := ih (by simp) h
            have hgap : AllBlank (c :: tail.takeWhile isBlank) :=
              List.forall_mem_cons.2 ⟨hc, fun d hd => List.mem_takeWhile_imp hd⟩
            have hsplit : tail = tail.takeWhile isBlank ++ (m ++ rest) := by
              rw [← htail]; exact List.takeWhile_append_dropWhile.symm
            refine ⟨_, .cons w _ _ m hgap (by simp) hm, ?_⟩
            rw [← List.isPrefixOf?_eq_some_iff_append_eq.1 hw]
            conv_lhs => rw [hsplit]
            simp
          · cases h
        · cases h
      · simp

/-- **What the search at one place finds.** -/
theorem dropWords?_eq_some_iff (hne : ws ≠ []) (hws : ∀ w ∈ ws, IsWord w) :
    dropWords? ws t = some rest ↔ ∃ m, Spaced ws m ∧ t = m ++ rest := by
  constructor
  · exact spaced_of_dropWords? hne
  · rintro ⟨m, hm, rfl⟩
    exact dropWords?_of_spaced hws hm rest

theorem occursAt_iff (hne : ws ≠ []) (hws : ∀ w ∈ ws, IsWord w) :
    OccursAt ws t i ↔ (dropWords? ws (t.drop i)).isSome = true := by
  rw [Option.isSome_iff_exists]
  constructor
  · rintro ⟨m, hm, rest, heq⟩
    exact ⟨rest, by rw [← heq]; exact dropWords?_of_spaced hws hm rest⟩
  · rintro ⟨rest, h⟩
    obtain ⟨m, hm, heq⟩ := spaced_of_dropWords? hne h
    exact ⟨m, hm, rest, heq.symm⟩

theorem occursAt_append (hm : Spaced ws m) (before rest : Text) :
    OccursAt ws (before ++ (m ++ rest)) before.length := by
  refine ⟨m, hm, rest, ?_⟩
  rw [List.drop_left]

/-- **What the search finds**: the words stand there, and they do not occur before. -/
theorem afterWords?_eq_some_iff (hne : ws ≠ []) (hws : ∀ w ∈ ws, IsWord w) :
    afterWords? ws t = some rest ↔ ∃ before m, t = before ++ (m ++ rest) ∧ Spaced ws m ∧
      ∀ i < before.length, ¬ OccursAt ws t i := by
  induction t with
  | nil =>
    rw [afterWords?, dropWords?_eq_some_iff hne hws]
    constructor
    · rintro ⟨m, hm, heq⟩
      exact ⟨[], m, heq, hm, by simp⟩
    · rintro ⟨before, m, heq, hm, -⟩
      exact ⟨m, hm, by rw [(List.append_eq_nil_iff.1 heq.symm).2]⟩
  | cons c t ih =>
    rw [afterWords?, Option.or_eq_some_iff, ih, dropWords?_eq_some_iff hne hws]
    constructor
    · rintro (⟨m, hm, heq⟩ | ⟨hnone, before, m, rfl, hm, hbefore⟩)
      · exact ⟨[], m, heq, hm, by simp⟩
      · refine ⟨c :: before, m, rfl, hm, fun i hi => ?_⟩
        cases i with
        | zero => rw [occursAt_iff hne hws, List.drop_zero, hnone]; simp
        | succ i => exact hbefore i (by simpa using hi)
    · rintro ⟨before, m, heq, hm, hbefore⟩
      cases before with
      | nil => exact .inl ⟨m, hm, heq⟩
      | cons d before =>
        obtain ⟨rfl, rfl⟩ := List.cons.inj heq
        have hzero := hbefore 0 (by simp)
        rw [occursAt_iff hne hws, List.drop_zero] at hzero
        refine .inr ⟨by simpa using hzero, before, m, rfl, hm, fun i hi => ?_⟩
        exact hbefore (i + 1) (by simpa using hi)

/-! ## Earlier occurrences -/

/-- A word that starts before a blank ends before it. -/
theorem word_before {after : Text} (hw : IsWord w) (hc : isBlank c = true) {lead : Text}
    (h : w ++ after = lead ++ c :: t) : ∃ gap, lead = w ++ gap ∧ after = gap ++ c :: t := by
  rcases List.append_eq_append_iff.1 h with ⟨gap, hlead, hafter⟩ | ⟨tail, hword, htail⟩
  · exact ⟨gap, hlead, hafter⟩
  · cases tail with
    | nil => exact ⟨[], by simpa using hword.symm, by simpa using htail.symm⟩
    | cons d tail =>
      obtain ⟨rfl, -⟩ := List.cons.inj htail
      have hd := hw.2 c (by rw [hword]; simp)
      rw [hc] at hd
      cases hd

/-- Blanks that start before a word end before it. -/
theorem blanks_before {after lead : Text} (hb : AllBlank blanks) (ht : ¬ Parted t)
    (h : blanks ++ after = lead ++ t) : ∃ gap, lead = blanks ++ gap ∧ after = gap ++ t := by
  rcases List.append_eq_append_iff.1 h with ⟨gap, hlead, hafter⟩ | ⟨tail, hblanks, htail⟩
  · exact ⟨gap, hlead, hafter⟩
  · cases tail with
    | nil => exact ⟨[], by simpa using hblanks.symm, by simpa using htail.symm⟩
    | cons d tail =>
      refine absurd ?_ ht
      rw [htail]
      exact parted_cons (hb d (by rw [hblanks]; simp)) _

/-- **An earlier occurrence of words ends before the last of them starts**: the last word lies
between its end and the end of the later one. -/
theorem Spaced.ends_before {m' lead after : Text} (h : Spaced ws m) (h' : Spaced ws m')
    (hws : ∀ w ∈ ws, IsWord w) (hc : isBlank c = true)
    (heq : m ++ after = lead ++ c :: (m' ++ rest)) :
    ∃ extra last, after = extra ++ rest ∧ ws.getLast? = some last ∧ last <:+: extra := by
  -- word by word, each one of the earlier occurrence ends before the same one of the later starts
  induction h generalizing m' lead c with
  | one w =>
    cases h' with
    | one =>
      obtain ⟨gap, -, rfl⟩ := word_before (hws w List.mem_cons_self) hc heq
      exact ⟨gap ++ c :: w, w, by simp, rfl, gap ++ [c], [], by simp⟩
    | cons _ _ _ _ _ _ hnone => exact absurd rfl hnone.ne_nil
  | cons w blanks ws m hb hne h ih =>
    cases h' with
    | one => exact absurd rfl h.ne_nil
    | cons _ blanks' _ m' hb' hne' h' =>
      have hw := hws w List.mem_cons_self
      rw [List.append_assoc] at heq
      obtain ⟨gap, -, hgap⟩ := word_before hw hc heq
      have hgap' : blanks ++ (m ++ after) = (gap ++ [c]) ++ (w ++ (blanks' ++ (m' ++ rest))) := by
        simpa using hgap
      obtain ⟨between, -, hbetween⟩ := blanks_before hb (hw.not_parted _) hgap'
      obtain ⟨others, d, rfl⟩ := (List.eq_nil_or_concat blanks').resolve_left hne'
      have hnext : m ++ after = (between ++ (w ++ others)) ++ d :: (m' ++ rest) := by
        simpa using hbetween
      obtain ⟨extra, last, hextra, hlast, hinfix⟩ :=
        ih h' (fun v hv => hws v (List.mem_cons_of_mem _ hv)) (hb' d (by simp)) hnext
      refine ⟨extra, last, hextra, ?_, hinfix⟩
      rw [List.getLast?_cons_of_ne_nil h.ne_nil, hlast]

end ProcCall.Text
