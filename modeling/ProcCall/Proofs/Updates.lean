import ProcCall.Config
import ProcCall.Proofs.Casing
import Mathlib.Data.Char
import Mathlib.Data.List.Lex

/-!
# Updates of configurations

Every update makes a configuration anew from options, so what the options of a configuration are
made into has to be made into itself. For the lists of marks that is plain. A keyword set is put
in order and in one case again, and comes out as it went in, because it is in order already and
changing the case once is enough.

* `Config.keywordSet_keywordSet`: a keyword set is made into itself.
* `Config.ofOptions_over_ofOptions_over`: two updates are one.
* `Config.foldlM_replace`: a chain of updates is one update.
* `Config.replace_lawful`: the laws of updates.
-/

namespace ProcCall

namespace Config

variable {fold : Text → Text} {w v : Text} {ws : List Text} {c : Config}

/-! ## Keyword sets -/

theorem mem_insertWord : v ∈ insertWord w ws ↔ v = w ∨ v ∈ ws := by
  induction ws with
  | nil => simp [insertWord]
  | cons u rest ih =>
    rw [insertWord]
    split
    · next heq => simp [heq]
    · split
      · simp
      · rw [List.mem_cons, ih, List.mem_cons, or_left_comm]

/-- Words in rising order stay so when one is put in. -/
theorem sorted_insertWord (h : ws.Pairwise (· < ·)) : (insertWord w ws).Pairwise (· < ·) := by
  induction ws with
  | nil => simp [insertWord]
  | cons u rest ih =>
    obtain ⟨hfirst, hrest⟩ := List.pairwise_cons.1 h
    rw [insertWord]
    split
    · exact h
    · next hne =>
      split
      · next hlt =>
        refine List.pairwise_cons.2 ⟨fun v hv => ?_, h⟩
        rcases List.mem_cons.1 hv with rfl | hv
        · exact hlt
        · exact lt_trans hlt (hfirst v hv)
      · next hnot =>
        refine List.pairwise_cons.2 ⟨fun v hv => ?_, ih hrest⟩
        rcases mem_insertWord.1 hv with rfl | hv
        · exact lt_of_le_of_ne (not_lt.1 hnot) (Ne.symm hne)
        · exact hfirst v hv

/-- A word below all others is put first. -/
theorem insertWord_of_lt (h : ∀ v ∈ ws, w < v) : insertWord w ws = w :: ws := by
  cases ws with
  | nil => rfl
  | cons v rest =>
    have hlt : w < v := h v List.mem_cons_self
    rw [insertWord, if_neg hlt.ne, if_pos hlt]

theorem mem_keywordSet : v ∈ keywordSet fold ws ↔ ∃ w ∈ ws, fold w = v := by
  induction ws with
  | nil => simp [keywordSet]
  | cons w rest ih =>
    unfold keywordSet at ih ⊢
    rw [List.foldr_cons, mem_insertWord, ih]
    simp [eq_comm]

/-- The words of a keyword set are in rising order. -/
theorem sorted_keywordSet (fold : Text → Text) (ws : List Text) :
    (keywordSet fold ws).Pairwise (· < ·) := by
  induction ws with
  | nil => exact .nil
  | cons w rest ih => exact sorted_insertWord ih

/-- Words in rising order that have their case already are a keyword set. -/
theorem keywordSet_eq_self (hsorted : ws.Pairwise (· < ·)) (hcase : ∀ w ∈ ws, fold w = w) :
    keywordSet fold ws = ws := by
  induction ws with
  | nil => rfl
  | cons w rest ih =>
    obtain ⟨hfirst, hrest⟩ := List.pairwise_cons.1 hsorted
    obtain ⟨hw, hcases⟩ := List.forall_mem_cons.1 hcase
    have htail := ih hrest hcases
    unfold keywordSet at htail ⊢
    rw [List.foldr_cons, htail, hw, insertWord_of_lt hfirst]

/-- **A keyword set is made into itself**, when changing the case once is enough. -/
theorem keywordSet_keywordSet (hfold : ∀ w, fold (fold w) = fold w) (ws : List Text) :
    keywordSet fold (keywordSet fold ws) = keywordSet fold ws := by
  refine keywordSet_eq_self (sorted_keywordSet fold ws) fun v hv => ?_
  obtain ⟨w, -, rfl⟩ := mem_keywordSet.1 hv
  exact hfold w

/-! ## One update -/

/-- The options that an update makes the new configuration from: the changed ones, and the others
as the old configuration has them. -/
def Changes.over (a : Changes) (c : Config) : Options where
  variableMarks := a.variableMarks.getD (some c.variableMarks)
  returnVariableMarks := a.returnVariableMarks.getD (some c.returnVariableMarks)
  execKeywords := a.execKeywords.getD (some c.execKeywords)
  outputKeywords := a.outputKeywords.getD (some c.outputKeywords)
  matchNamesLoosely := a.matchNamesLoosely.getD c.matchNamesLoosely
  dialect := a.dialect.getD c.dialect

/-- Whether `c'` is `c` with some changes made: an option that is not mentioned has the value that
`c` has, and every other one the value that the constructor makes of what is given. -/
structure Changes.Made (a : Changes) (c c' : Config) : Prop where
  variableMarks : c'.variableMarks = a.variableMarks.elim c.variableMarks
    fun marks => (ofOptions { variableMarks := marks }).variableMarks
  returnVariableMarks : c'.returnVariableMarks = a.returnVariableMarks.elim c.returnVariableMarks
    fun marks => (ofOptions { returnVariableMarks := marks }).returnVariableMarks
  execKeywords : c'.execKeywords = a.execKeywords.elim c.execKeywords
    fun words => (ofOptions { execKeywords := words }).execKeywords
  outputKeywords : c'.outputKeywords = a.outputKeywords.elim c.outputKeywords
    fun words => (ofOptions { outputKeywords := words }).outputKeywords
  matchNamesLoosely : c'.matchNamesLoosely = a.matchNamesLoosely.getD c.matchNamesLoosely
  dialect : c'.dialect = a.dialect.getD c.dialect

variable {a b : Changes}

/-- An update that mentions options only succeeds. -/
theorem replace_eq_ok (h : a.unknown = []) (c : Config) :
    c.replace a = .ok (ofOptions (a.over c)) := by
  rw [replace, h]
  rfl

/-- An update that mentions anything else is refused. -/
theorem replace_eq_error (h : a.unknown ≠ []) (c : Config) :
    c.replace a = .error (.unknownOptions (keywordSet id a.unknown)) := by
  have hunknown : a.unknown.isEmpty = false := by simpa using h
  rw [replace, hunknown]
  rfl

/-- **An update without changes** makes a configuration into itself. -/
theorem ofOptions_over_nothing (o : Options) :
    ofOptions (Changes.over {} (ofOptions o)) = ofOptions o := by
  have hlower := keywordSet_keywordSet Text.toLower_toLower
  have hupper := keywordSet_keywordSet Text.toUpper_toUpper
  simp only [Changes.over, ofOptions, Option.getD_none, Option.getD_some, hlower, hupper]

/-- **An update makes its changes** and no others. -/
theorem made_ofOptions_over (a : Changes) (o : Options) :
    a.Made (ofOptions o) (ofOptions (a.over (ofOptions o))) where
  variableMarks := by
    cases hmarks : a.variableMarks <;> simp [Changes.over, ofOptions, hmarks]
  returnVariableMarks := by
    cases hmarks : a.returnVariableMarks <;> simp [Changes.over, ofOptions, hmarks]
  execKeywords := by
    cases hwords : a.execKeywords with
    | none =>
      simp [Changes.over, ofOptions, hwords, keywordSet_keywordSet Text.toLower_toLower]
    | some words => simp [Changes.over, ofOptions, hwords]
  outputKeywords := by
    cases hwords : a.outputKeywords with
    | none =>
      simp [Changes.over, ofOptions, hwords, keywordSet_keywordSet Text.toUpper_toUpper]
    | some words => simp [Changes.over, ofOptions, hwords]
  matchNamesLoosely := rfl
  dialect := rfl

/-! ## Several updates -/

/-- **Two updates are one**: what the second one does not mention it finds as the first one left
it. -/
theorem ofOptions_over_ofOptions_over (a b : Changes) (c : Config) :
    ofOptions (b.over (ofOptions (a.over c))) = ofOptions ((a.followedBy b).over c) := by
  have hlower := keywordSet_keywordSet Text.toLower_toLower
  have hupper := keywordSet_keywordSet Text.toUpper_toUpper
  unfold ofOptions Changes.over Changes.followedBy
  simp only [Config.mk.injEq]
  refine ⟨?_, ?_, ?_, ?_, ?_, ?_⟩
  · cases b.variableMarks <;> simp
  · cases b.returnVariableMarks <;> simp
  · cases b.execKeywords <;> simp [hlower]
  · cases b.outputKeywords <;> simp [hupper]
  · cases b.matchNamesLoosely <;> simp
  · cases b.dialect <;> simp

/-- **One more update** after some that are taken together. -/
theorem replace_followedBy (ha : a.unknown = []) (hb : b.unknown = []) (c : Config) :
    c.replace (a.followedBy b) = (c.replace a).bind (·.replace b) := by
  have hboth : (a.followedBy b).unknown = [] := by simp [Changes.followedBy, ha, hb]
  rw [replace_eq_ok hboth, ← ofOptions_over_ofOptions_over, replace_eq_ok ha]
  exact (replace_eq_ok hb _).symm

/-- A chain of updates after some that are taken together. -/
theorem bind_foldlM_replace (ha : a.unknown = []) {as : List Changes}
    (has : ∀ b ∈ as, b.unknown = []) (c : Config) :
    (c.replace a).bind (as.foldlM replace ·) = c.replace (as.foldl Changes.followedBy a) := by
  -- the updates so far are taken together, so the next one is added to them
  induction as generalizing a with
  | nil => exact bind_pure (c.replace a)
  | cons b rest ih =>
    obtain ⟨hb, hrest⟩ := List.forall_mem_cons.1 has
    have hboth : (a.followedBy b).unknown = [] := by simp [Changes.followedBy, ha, hb]
    rw [List.foldl_cons, ← ih hboth hrest, replace_followedBy ha hb]
    cases c.replace a with
    | error e => rfl
    | ok c' => rfl

/-- **A chain of updates is one update**, with what is mentioned last for every option. -/
theorem foldlM_replace (o : Options) {as : List Changes} (h : ∀ a ∈ as, a.unknown = []) :
    as.foldlM replace (ofOptions o) = (ofOptions o).replace (as.foldl Changes.followedBy {}) := by
  have hchain := bind_foldlM_replace (a := {}) rfl h (ofOptions o)
  rw [replace_eq_ok rfl, ofOptions_over_nothing] at hchain
  exact hchain

/-- **The laws of updates**, for configurations as they are made from options. An update without
changes gives the configuration back, two updates are one in which the second wins, and an update
leaves every option that it does not mention as it is. An update that mentions what is no option
is refused, with the names of all that are none. -/
theorem replace_lawful (o : Options) (a b : Changes) (ha : a.unknown = []) (hb : b.unknown = []) :
    (ofOptions o).replace {} = .ok (ofOptions o) ∧
      (∃ c c', (ofOptions o).replace a = .ok c ∧ a.Made (ofOptions o) c ∧
        c.replace b = .ok c' ∧ (ofOptions o).replace (a.followedBy b) = .ok c') ∧
      ∀ wrong : Changes, wrong.unknown ≠ [] →
        (ofOptions o).replace wrong = .error (.unknownOptions (keywordSet id wrong.unknown)) := by
  have hnothing : (ofOptions o).replace {} = .ok (ofOptions o) := by
    rw [replace_eq_ok rfl, ofOptions_over_nothing]
  have hfirst := replace_eq_ok ha (ofOptions o)
  have hsecond := replace_eq_ok hb (ofOptions (a.over (ofOptions o)))
  have htogether := replace_followedBy ha hb (ofOptions o)
  rw [hfirst] at htogether
  exact ⟨hnothing, ⟨_, _, hfirst, made_ofOptions_over a o, hsecond, htogether.trans hsecond⟩,
    fun wrong hwrong => replace_eq_error hwrong (ofOptions o)⟩

/-- A list of keywords that is emptied and then reset, one that is set, and a mark that stays. -/
theorem replace_lawful_of_reset :
    let o : Options := { variableMarks := some [[':']], execKeywords := some ["Run".toList] }
    let a : Changes := { execKeywords := some (some []), outputKeywords := some (some
      ["ret".toList, "Out".toList, "RET".toList]) }
    let b : Changes := { execKeywords := some none, dialect := some "mysql".toList }
    let c : Config := { standard with
      variableMarks := [[':']]
      execKeywords := []
      outputKeywords := ["OUT".toList, "RET".toList] }
    let c' : Config := { c with
      execKeywords := ["exec".toList, "execute".toList]
      dialect := "mysql".toList }
    a.unknown = [] ∧ b.unknown = [] ∧ (ofOptions o).replace {} = .ok (ofOptions o) ∧
      (ofOptions o).replace a = .ok c ∧ a.Made (ofOptions o) c ∧ c.replace b = .ok c' ∧
      (ofOptions o).replace (a.followedBy b) = .ok c' ∧
      (ofOptions o).replace { unknown := ["z".toList, "b".toList] } =
        .error (.unknownOptions ["b".toList, "z".toList]) := by
  intro o a b c c'
  obtain ⟨hnothing, ⟨d, d', hfirst, hmade, hsecond, htogether⟩, hrefused⟩ :=
    replace_lawful o a b rfl rfl
  have hc : (ofOptions o).replace a = .ok c := by decide +kernel
  obtain rfl : d = c := Except.ok.inj (hfirst.symm.trans hc)
  have hc' : c.replace b = .ok c' := by decide +kernel
  obtain rfl : d' = c' := Except.ok.inj (hsecond.symm.trans hc')
  have hwrong := hrefused { unknown := ["z".toList, "b".toList] } (by decide)
  exact ⟨rfl, rfl, hnothing, hfirst, hmade, hsecond, htogether, hwrong⟩

end Config

end ProcCall
