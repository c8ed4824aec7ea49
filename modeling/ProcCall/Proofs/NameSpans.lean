import ProcCall.Proofs.Brackets
import ProcCall.Proofs.Splitting

/-!
# The span of the name among the words

The words of a call are passed one by one, but where the name stands among them can be said at
once. It starts at the first word that is not skipped, and it ends at the first word after which
its brackets are closed, or with the last word. The return variable is the last word before the
name that is one. Later words have no part in this.

* `CallHead.NameSpan`: where the name starts and ends.
* `CallHead.returnVariableBefore`: the return variable.
* `CallHead.walk_eq_none_iff`: when there is no name.
* `CallHead.NameSpan.unique`, `CallHead.exists_nameSpan_of_walk`: what the walk finds is the span.
* `CallHead.name_read_from_span`: both outcomes for a call text.
-/

namespace ProcCall.CallHead

open Text

variable {config : Config} {w : Text} {words name others skipped : List Text}
  {given found : Option Text} {p q r : Nat}

/-- The words from one index up to another, joined by single spaces. -/
def joined (words : List Text) (p q : Nat) : Text := unwords ((words.drop p).take (q - p))

variable (config) in
/-- **The span of the name** among some words: it starts at the first word that is not skipped,
and it ends at the first index at which its brackets are closed, or after the last word. -/
structure NameSpan (words : List Text) (p q : Nat) : Prop where
  skipped : ∀ i < p, ∀ w ∈ words[i]?, isSkippable config w = true
  first : ∃ w ∈ words[p]?, isSkippable config w = false
  after : p < q
  within : q ≤ words.length
  unfinished : ∀ r, p < r → r < q → ¬ Closed (joined words p r)
  finished : q = words.length ∨ Closed (joined words p q)

variable (config) in
/-- **The return variable** before an index: the last word that starts as one and says something. -/
def returnVariableBefore (words : List Text) (p : Nat) : Option Text :=
  ((words.take p).filter fun w => isReturnVariable config w && !isIdle config w).getLast?

/-! ## No name -/

/-- **There is no name** when every word is skipped. -/
theorem walk_eq_none_iff :
    walk config given words = none ↔ ∀ w ∈ words, isSkippable config w = true := by
  induction words generalizing given with
  | nil => simp [walk]
  | cons w words ih =>
    cases hw : isSkippable config w with
    | true => simp [walk_cons_skip hw, ih, hw]
    | false => simp [walk_cons_stop hw, hw]

/-- A call text is refused when it has no name, and for no other reason. -/
theorem ofText_eq_error_iff {t : Text} {e : Error} : ofText config t = .error e ↔
    (∀ w ∈ t.words, isSkippable config w = true) ∧ e = .noProcedureName t := by
  have hnone : walk config none t.words = none ↔ ∀ w ∈ t.words, isSkippable config w = true :=
    walk_eq_none_iff
  rw [← hnone]
  cases hwalk : walk config none t.words with
  | none =>
    have herror : ofText config t = .error (.noProcedureName t) := by
      unfold ofText
      rw [hwalk]
    rw [herror, Except.error.injEq]
    simp [eq_comm]
  | some result =>
    obtain ⟨found, name⟩ := result
    obtain ⟨arguments, hok⟩ := exists_ofText_of_walk hwalk
    simp [hok]

/-! ## The span -/

theorem joined_append (skipped name others : List Text) (hr : r ≤ skipped.length + name.length) :
    joined (skipped ++ (name ++ others)) skipped.length r =
      unwords (name.take (r - skipped.length)) := by
  unfold joined
  rw [List.drop_left, List.take_append_of_le_length (by omega)]

/-- **Words that are taken as a name** are its span. -/
theorem nameSpan_of_takes (hskipped : ∀ s ∈ skipped, isSkippable config s = true)
    (hfirst : ∀ w ∈ name.head?, isSkippable config w = false) (h : Takes [] name others) :
    NameSpan config (skipped ++ (name ++ others)) skipped.length
      (skipped.length + name.length) where
  skipped i hi w hw := by
    rw [List.getElem?_append_left hi] at hw
    exact hskipped w (List.mem_of_getElem? hw)
  first := by
    obtain ⟨w, rest, rfl⟩ := List.exists_cons_of_ne_nil h.nonempty
    exact ⟨w, by simp, hfirst w rfl⟩
  after := by
    have hpos := List.length_pos_iff.2 h.nonempty
    omega
  within := by
    simp only [List.length_append]
    omega
  unfinished r hp hq := by
    rw [joined_append _ _ _ (Nat.le_of_lt hq), ← isComplete_iff_closed]
    -- a part of the name that ends before its last word
    have hsplit : name = name.take (r - skipped.length) ++ name.drop (r - skipped.length) :=
      (List.take_append_drop _ _).symm
    have hopen := h.unfinished _ _ hsplit ?_ ?_
    · rw [List.nil_append] at hopen
      rw [hopen]
      simp
    · intro hnil
      rcases List.take_eq_nil_iff.1 hnil with hzero | hname
      · omega
      · exact h.nonempty hname
    · intro hnil
      have hlength := List.drop_eq_nil_iff.1 hnil
      omega
  finished := by
    rw [joined_append _ _ _ (Nat.le_refl _), Nat.add_sub_cancel_left, List.take_length,
      ← isComplete_iff_closed]
    rcases h.finished with rfl | hcomplete
    · exact .inl (by simp)
    · exact .inr hcomplete

/-- **There is one span** only. -/
theorem NameSpan.unique {p' q' : Nat} (h : NameSpan config words p q)
    (h' : NameSpan config words p' q') : p = p' ∧ q = q' := by
  -- neither start lies before the other, since the word there is not skipped
  have hstart : ∀ {a b a' b' : Nat}, NameSpan config words a b → NameSpan config words a' b' →
      ¬ a < a' := by
    intro a b a' b' ha ha' hlt
    obtain ⟨w, hw, hfalse⟩ := ha.first
    rw [ha'.skipped a hlt w hw] at hfalse
    cases hfalse
  obtain rfl : p = p' :=
    Nat.le_antisymm (Nat.le_of_not_lt (hstart h' h)) (Nat.le_of_not_lt (hstart h h'))
  -- nor does either end, since the words end there or the brackets are closed
  have hend : ∀ {b b' : Nat}, NameSpan config words p b → NameSpan config words p b' →
      ¬ b < b' := by
    intro b b' hb hb' hlt
    rcases hb.finished with hlength | hclosed
    · have hwithin := hb'.within
      omega
    · exact hb'.unfinished b hb.after hlt hclosed
  exact ⟨rfl, Nat.le_antisymm (Nat.le_of_not_lt (hend h' h)) (Nat.le_of_not_lt (hend h h'))⟩

theorem lastReturnVariable_eq (h : ∀ s ∈ skipped, isSkippable config s = true) :
    lastReturnVariable config none skipped =
      (skipped.filter fun w => isReturnVariable config w && !isIdle config w).getLast? := by
  have hfilter : skipped.filter (!isIdle config ·) =
      skipped.filter fun w => isReturnVariable config w && !isIdle config w := by
    refine List.filter_congr fun w hw => ?_
    have hskip := h w hw
    rw [isSkippable] at hskip
    cases hidle : isIdle config w with
    | true => simp
    | false =>
      rw [hidle, Bool.false_or] at hskip
      simp [hskip]
  rw [lastReturnVariable, Option.or_none, hfilter]

/-- **What the walk finds** is the span of the name and the return variable before it, also when
the words after the name are others. -/
theorem exists_nameSpan_of_walk (h : walk config none words = some (found, name)) : ∃ p q,
    NameSpan config words p q ∧ unwords name = joined words p q ∧
      found = returnVariableBefore config words p ∧
      ∀ others, others = [] ∨ Closed (joined words p q) →
        walk config none (words.take q ++ others) = some (found, name) := by
  obtain ⟨skipped, rest, rfl, hskipped, hfirst, htakes, hfound⟩ := walk_eq_some_iff.1 h
  have hname : joined (skipped ++ (name ++ rest)) skipped.length (skipped.length + name.length) =
      unwords name := by
    rw [joined_append _ _ _ (Nat.le_refl _), Nat.add_sub_cancel_left, List.take_length]
  refine ⟨skipped.length, skipped.length + name.length, nameSpan_of_takes hskipped hfirst htakes,
    hname.symm, ?_, fun others hothers => ?_⟩
  · unfold returnVariableBefore
    rw [List.take_left, hfound, lastReturnVariable_eq hskipped]
  · rw [hname, ← isComplete_iff_closed] at hothers
    have hwords : (skipped ++ (name ++ rest)).take (skipped.length + name.length) ++ others =
        skipped ++ (name ++ others) := by
      rw [List.take_length_add_append, List.take_left, List.append_assoc]
    rw [hwords]
    exact walk_eq_some_iff.2 ⟨skipped, others, rfl, hskipped, hfirst,
      ⟨htakes.nonempty, htakes.unfinished, hothers⟩, hfound⟩

/-! ## Both outcomes -/

/-- **The name is read from its span.** A call text is refused as one without a name exactly when
every word is skipped. Otherwise the name has a span, the words of which are the name, and the
return variable stands before it. Other words after the span give the same name and the same return
variable, if the brackets are closed at its end; if they are not, there are no words after it. -/
theorem name_read_from_span (config : Config) (t : Text) :
    ((∃ e r, ofText config t = .error e ∧ e.report? = some r ∧
        r.topic.name = "SQLProcParsingError") ↔ ∀ w ∈ t.words, isSkippable config w = true) ∧
      ((∃ w ∈ t.words, isSkippable config w = false) → ∃ p q, NameSpan config t.words p q) ∧
      ∀ p q, NameSpan config t.words p q →
        (∃ arguments, ofText config t =
          .ok ⟨returnVariableBefore config t.words p, joined t.words p q, arguments⟩) ∧
        ∀ (t' : Text) (others : List Text), t'.words = t.words.take q ++ others →
          others = [] ∨ Closed (joined t.words p q) → ∃ arguments, ofText config t' =
            .ok ⟨returnVariableBefore config t.words p, joined t.words p q, arguments⟩ := by
  refine ⟨?_, ?_, ?_⟩
  · constructor
    · rintro ⟨e, r, herror, -, -⟩
      exact (ofText_eq_error_iff.1 herror).1
    · intro hall
      exact ⟨.noProcedureName t, _, ofText_eq_error_iff.2 ⟨hall, rfl⟩, rfl, rfl⟩
  · rintro ⟨w, hw, hstop⟩
    cases hwalk : walk config none t.words with
    | none =>
      rw [walk_eq_none_iff.1 hwalk w hw] at hstop
      cases hstop
    | some result =>
      obtain ⟨p, q, hspan, -⟩ := exists_nameSpan_of_walk hwalk
      exact ⟨p, q, hspan⟩
  · intro p q hspan
    cases hwalk : walk config none t.words with
    | none =>
      -- the word at the start of the span is not skipped
      obtain ⟨w, hw, hstop⟩ := hspan.first
      rw [walk_eq_none_iff.1 hwalk w (List.mem_of_getElem? hw)] at hstop
      cases hstop
    | some result =>
      obtain ⟨found, name⟩ := result
      obtain ⟨p', q', hspan', hname, hfound, hothers⟩ := exists_nameSpan_of_walk hwalk
      obtain ⟨rfl, rfl⟩ := hspan.unique hspan'
      rw [← hname, ← hfound]
      refine ⟨exists_ofText_of_walk hwalk, fun t' others hwords hclosed => ?_⟩
      refine exists_ofText_of_walk ?_
      rw [hwords]
      rw [← hname] at hothers
      exact hothers others hclosed

/-- A name with a keyword and a mark in its brackets, after two return variables. -/
theorem name_read_from_span_of_bracketed :
    let t : Text := "EXEC @r @s = [a  exec\t@b].c @x out".toList
    NameSpan .standard t.words 4 7 ∧ ∃ arguments,
      ofText .standard t = .ok ⟨some "@s".toList, "[a exec @b].c".toList, arguments⟩ := by
  intro t
  have hspan : NameSpan .standard t.words 4 7 :=
    { skipped := by decide
      first := ⟨"[a".toList, rfl, rfl⟩
      after := by decide
      within := by decide
      unfinished := fun r hp hq => by
        have hr : r = 5 ∨ r = 6 := by omega
        rcases hr with rfl | rfl
        · decide
        · decide
      finished := .inr (by decide) }
  exact ⟨hspan, ((name_read_from_span .standard t).2.2 4 7 hspan).1⟩

end ProcCall.CallHead
