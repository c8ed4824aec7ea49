import ProcCall.Proofs.Occurrences

/-!
# The walk over the words of a call

The walk passes the words that may stand before the procedure name, keeps the last return
variable among them, and takes further words until every bracket is closed.

* `CallHead.Takes`: which words are taken as a name.
* `CallHead.nameWords_takes`, `CallHead.Takes.nameWords_eq`: the name is what they say.
* `CallHead.walk_eq_some_iff`: the whole walk.
-/

namespace ProcCall.CallHead

variable {config : Config} {w : Text} {words taken name others skipped rest : List Text}
  {given found : Option Text}

/-! ## The words of the name -/

/-- Whether words are **taken** as a name after `taken` and before `others`: before the last
of them some bracket is open, and after it none is unless there are no more words. -/
structure Takes (taken name others : List Text) : Prop where
  nonempty : name ≠ []
  unfinished : ∀ a b, name = a ++ b → a ≠ [] → b ≠ [] →
    isComplete (Text.unwords (taken ++ a)) = false
  finished : others = [] ∨ isComplete (Text.unwords (taken ++ name)) = true

theorem takes_one (h : rest = [] ∨ isComplete (Text.unwords (taken ++ [w])) = true) :
    Takes taken [w] rest := by
  refine ⟨by simp, ?_, h⟩
  intro a b heq ha hb
  -- a single word has no two parts
  rcases List.singleton_eq_append_iff.1 heq with ⟨hnil, -⟩ | ⟨-, hnil⟩
  · exact absurd hnil ha
  · exact absurd hnil hb

/-- A further word is taken as long as a bracket is open. -/
theorem Takes.cons (hw : isComplete (Text.unwords (taken ++ [w])) = false)
    (h : Takes (taken ++ [w]) name others) : Takes taken (w :: name) others := by
  refine ⟨by simp, ?_, by simpa using h.finished⟩
  intro a b heq ha hb
  obtain ⟨v, a, rfl⟩ := List.exists_cons_of_ne_nil ha
  obtain ⟨rfl, htail⟩ := List.cons.inj heq
  by_cases hnil : a = []
  · rw [hnil]; exact hw
  · have hrest := h.unfinished a b htail hnil hb
    rwa [List.append_assoc] at hrest

/-- **The words that are taken.** -/
theorem nameWords_takes (taken : List Text) (hne : words ≠ []) : ∃ name others,
    words = name ++ others ∧ nameWords taken words = taken ++ name ∧ Takes taken name others := by
  induction words generalizing taken with
  | nil => exact absurd rfl hne
  | cons w rest ih =>
    rw [nameWords]
    cases hw : isComplete (Text.unwords (taken ++ [w])) with
    | true => exact ⟨[w], rest, rfl, by simp, takes_one (.inr hw)⟩
    | false =>
      cases rest with
      | nil => exact ⟨[w], [], rfl, by simp [nameWords], takes_one (.inl rfl)⟩
      | cons v rest =>
        obtain ⟨name, others, heq, hname, htakes⟩ := ih (taken ++ [w]) (by simp)
        refine ⟨w :: name, others, by rw [heq]; rfl, ?_, htakes.cons hw⟩
        simp [hname]

theorem Takes.nameWords_eq (h : Takes taken name others) :
    nameWords taken (name ++ others) = taken ++ name := by
  induction name generalizing taken with
  | nil => exact absurd rfl h.nonempty
  | cons w name ih =>
    rw [List.cons_append, nameWords]
    by_cases hnil : name = []
    · subst hnil
      rcases h.finished with rfl | hcomplete
      · simp [nameWords]
      · simp [hcomplete]
    · have hw := h.unfinished [w] name rfl (by simp) hnil
      have htail : Takes (taken ++ [w]) name others := by
        refine ⟨hnil, fun a b heq _ hb => ?_, by simpa using h.finished⟩
        rw [List.append_assoc]
        exact h.unfinished (w :: a) b (by rw [heq]; rfl) (by simp) hb
      simp [hw, ih htail]

/-! ## The words before the name -/

theorem walk_cons_skip (h : isSkippable config w = true) : walk config given (w :: rest) =
    walk config (if isIdle config w then given else some w) rest := by
  rw [walk]
  cases hidle : isIdle config w with
  | true => simp
  | false =>
    have hreturn : isReturnVariable config w = true := by
      rw [isSkippable, hidle] at h
      exact h
    simp [hreturn]

theorem walk_cons_stop (h : isSkippable config w = false) :
    walk config given (w :: rest) = some (given, nameWords [] (w :: rest)) := by
  obtain ⟨hidle, hreturn⟩ := Bool.or_eq_false_iff.1 h
  rw [walk]
  simp [hidle, hreturn]

variable (config) in
/-- The return variable among words that are skipped: the last one, or else the given one. -/
def lastReturnVariable (given : Option Text) (skipped : List Text) : Option Text :=
  (skipped.filter (!isIdle config ·)).getLast?.or given

theorem lastReturnVariable_cons : lastReturnVariable config given (w :: skipped) =
    lastReturnVariable config (if isIdle config w then given else some w) skipped := by
  unfold lastReturnVariable
  cases hidle : isIdle config w with
  | true => simp [hidle]
  | false =>
    rw [List.filter_cons_of_pos (by simp [hidle]), List.getLast?_cons]
    cases (skipped.filter (!isIdle config ·)).getLast? <;> simp

/-- **The walk** passes the words that may be skipped, keeps the last return variable among
them and takes the name from the first other word on. -/
theorem walk_eq_some_iff : walk config given words = some (found, name) ↔
    ∃ skipped others, words = skipped ++ (name ++ others) ∧
      (∀ s ∈ skipped, isSkippable config s = true) ∧
      (∀ w ∈ name.head?, isSkippable config w = false) ∧ Takes [] name others ∧
      found = lastReturnVariable config given skipped := by
  induction words generalizing given with
  | nil =>
    constructor
    · intro h; cases h
    · rintro ⟨skipped, others, heq, -, -, htakes, -⟩
      have hnone := (List.append_eq_nil_iff.1 heq.symm).2
      exact absurd (List.append_eq_nil_iff.1 hnone).1 htakes.nonempty
  | cons w words ih =>
    cases hw : isSkippable config w with
    | true =>
      rw [walk_cons_skip hw, ih]
      constructor
      · rintro ⟨skipped, others, rfl, hs, hf, htakes, rfl⟩
        exact ⟨w :: skipped, others, rfl, List.forall_mem_cons.2 ⟨hw, hs⟩, hf, htakes,
          lastReturnVariable_cons.symm⟩
      · rintro ⟨skipped, others, heq, hs, hf, htakes, rfl⟩
        cases skipped with
        | nil =>
          obtain ⟨first, name, rfl⟩ := List.exists_cons_of_ne_nil htakes.nonempty
          obtain ⟨rfl, -⟩ := List.cons.inj heq
          rw [hf w rfl] at hw
          cases hw
        | cons v skipped =>
          obtain ⟨rfl, rfl⟩ := List.cons.inj heq
          exact ⟨skipped, others, rfl, (List.forall_mem_cons.1 hs).2, hf, htakes,
            lastReturnVariable_cons⟩
    | false =>
      rw [walk_cons_stop hw]
      constructor
      · rintro ⟨⟩
        obtain ⟨name, others, heq, hname, htakes⟩ :=
          nameWords_takes [] (show w :: words ≠ [] by simp)
        rw [hname, List.nil_append]
        refine ⟨[], others, heq, by simp, ?_, htakes, rfl⟩
        obtain ⟨first, name, rfl⟩ := List.exists_cons_of_ne_nil htakes.nonempty
        obtain ⟨rfl, -⟩ := List.cons.inj heq
        rintro _ ⟨⟩
        exact hw
      · rintro ⟨skipped, others, heq, hs, -, htakes, rfl⟩
        cases skipped with
        | nil => rw [heq, List.nil_append, htakes.nameWords_eq]; rfl
        | cons v skipped =>
          obtain ⟨rfl, -⟩ := List.cons.inj heq
          rw [(List.forall_mem_cons.1 hs).1] at hw
          cases hw

/-- A return variable that the walk finds is one of the words, and it is not passed over. -/
theorem mem_of_lastReturnVariable (h : lastReturnVariable config none skipped = some w) :
    w ∈ skipped ∧ isIdle config w = false := by
  unfold lastReturnVariable at h
  rw [Option.or_none] at h
  simpa using List.mem_filter.1 (List.mem_of_getLast? h)

variable (config) in
/-- The words of a text before the name. -/
def leadWords (t : Text) : List Text := t.words.takeWhile (isSkippable config)

/-- **The words of a call**: the ones before the name, the name and the others. -/
theorem words_of_walk {t : Text} (h : walk config none t.words = some (found, name)) :
    ∃ others, t.words = leadWords config t ++ (name ++ others) ∧ Takes [] name others := by
  obtain ⟨skipped, others, heq, hs, hf, htakes, -⟩ := walk_eq_some_iff.1 h
  have hlead : leadWords config t = skipped := by
    obtain ⟨first, name, rfl⟩ := List.exists_cons_of_ne_nil htakes.nonempty
    unfold leadWords
    rw [heq, List.takeWhile_append_of_pos hs, List.cons_append,
      List.takeWhile_cons_of_neg (by simp [hf first rfl]), List.append_nil]
  exact ⟨others, by rw [hlead, heq], htakes⟩

end ProcCall.CallHead
