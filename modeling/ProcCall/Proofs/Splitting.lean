import ProcCall.Proofs.Walks

/-!
# The arguments of a call text

The procedure name is taken word by word, but the arguments start after the first place where
its words occur, and that place may lie before the words that were taken. The text after the
name's own place is kept in any case; what comes on top of it is empty when the words occur
nowhere before, and holds the last word of the name when they do.

* `CallHead.remainder`, `CallHead.nameOffset`: the name's own place.
* `CallHead.ofText_eq_ok_iff`: how a call text is cut.
* `CallHead.arguments_of_place`: the arguments against the name's own place.
* `CallHead.arguments_keep_remainder`: the same for every call text.
-/

namespace ProcCall

/-- The search finds words that occur anywhere. -/
theorem Text.exists_afterWords? {ws : List Text} {t rest : Text} (before : Text)
    (h : dropWords? ws t = some rest) : ∃ found, afterWords? ws (before ++ t) = some found := by
  induction before with
  | nil =>
    cases t with
    | nil => exact ⟨rest, h⟩
    | cons c t => exact ⟨rest, by rw [List.nil_append, afterWords?, h, Option.some_or]⟩
  | cons c before ih =>
    obtain ⟨found, hfound⟩ := ih
    rw [List.cons_append, afterWords?, hfound]
    cases dropWords? ws (c :: (before ++ t)) with
    | none => exact ⟨found, rfl⟩
    | some other => exact ⟨other, rfl⟩

namespace CallHead

open Text

variable {config : Config} {t m before rest : Text} {name : List Text} {head : CallHead}

variable (config) in
/-- The offset of the first word of the name at its own place. -/
def nameOffset (t : Text) : Nat := t.wordOffset (leadWords config t).length

variable (config) in
/-- What follows the words of the name at their own place. -/
def remainder (name : List Text) (t : Text) : Text :=
  t.pastWords ((leadWords config t).length + name.length)

/-- **The name's own place** in a call text. Nothing but blanks comes before it when no word
is skipped, and otherwise a blank comes last. -/
theorem exists_namePlace {found : Option Text} (h : walk config none t.words = some (found, name)) :
    ∃ before m, t = before ++ (m ++ remainder config name t) ∧
      before.length = nameOffset config t ∧ Spaced name m ∧ (∀ w ∈ name, IsWord w) ∧
      (leadWords config t = [] ∧ AllBlank before ∨
        leadWords config t ≠ [] ∧ ∃ lead c, before = lead ++ [c] ∧ isBlank c = true) := by
  obtain ⟨others, hwords, htakes⟩ := words_of_walk h
  obtain ⟨before, m, htext, hoffset, hm, hbefore⟩ := exists_place_after hwords htakes.nonempty
  refine ⟨before, m, htext, hoffset, hm, fun w hw => ?_, hbefore⟩
  exact isWord_of_mem_words (t := t) (by rw [hwords]; simp [hw])

/-- **How a call text is cut**: the walk gives the return variable and the name, and the
arguments start after the first place where the words of the name occur. -/
theorem ofText_eq_ok_iff : ofText config t = .ok head ↔ ∃ name,
    walk config none t.words = some (head.returnVariable, name) ∧
      head.procedureName = unwords name ∧ t.afterWords? name = some head.arguments := by
  obtain ⟨found, nameText, arguments⟩ := head
  unfold ofText
  cases hwalk : walk config none t.words with
  | none => simp
  | some r =>
    obtain ⟨given, name⟩ := r
    simp only [Option.some.injEq, Prod.mk.injEq]
    cases hafter : t.afterWords? name with
    | none =>
      simp only [reduceCtorEq, false_iff, not_exists, not_and]
      rintro other ⟨-, rfl⟩ -
      rw [hafter]
      simp
    | some found =>
      simp only [Except.ok.injEq, CallHead.mk.injEq]
      constructor
      · rintro ⟨rfl, rfl, rfl⟩
        exact ⟨name, ⟨rfl, rfl⟩, rfl, hafter⟩
      · rintro ⟨_, ⟨rfl, rfl⟩, rfl, hother⟩
        rw [hafter] at hother
        cases hother
        exact ⟨rfl, rfl, rfl⟩

/-- A name that the walk takes is always found. -/
theorem exists_ofText_of_walk {found : Option Text}
    (h : walk config none t.words = some (found, name)) :
    ∃ arguments, ofText config t = .ok ⟨found, unwords name, arguments⟩ := by
  obtain ⟨before, m, htext, -, hm, hname, -⟩ := exists_namePlace h
  obtain ⟨arguments, hafter⟩ := exists_afterWords? before
    (dropWords?_of_spaced hname hm (remainder config name t))
  rw [← htext] at hafter
  exact ⟨arguments, ofText_eq_ok_iff.2 ⟨name, h, rfl, hafter⟩⟩

/-- The words of the name are always found. -/
theorem ofText_ne_nameNotFound (config : Config) (t shown : Text) :
    ofText config t ≠ .error (.nameNotFound shown) := by
  cases hwalk : walk config none t.words with
  | none => simp [ofText, hwalk]
  | some r =>
    obtain ⟨found, name⟩ := r
    obtain ⟨arguments, hok⟩ := exists_ofText_of_walk hwalk
    simp [hok]

/-- **The arguments against the name's own place.** They start there, or at an occurrence
before it; then some word comes before the name, and they hold the last word of the name as
well. -/
theorem arguments_of_place {arguments : Text} (hname : ∀ w ∈ name, IsWord w) (hm : Spaced name m)
    (hbefore : AllBlank before ∨ ∃ lead c, before = lead ++ [c] ∧ isBlank c = true)
    (hafter : (before ++ (m ++ rest)).afterWords? name = some arguments) :
    (arguments = rest ∧ ∀ i < before.length, ¬ OccursAt name (before ++ (m ++ rest)) i) ∨
      (¬ AllBlank before ∧ (∃ i < before.length, OccursAt name (before ++ (m ++ rest)) i) ∧
        ∃ extra last, arguments = extra ++ rest ∧ name.getLast? = some last ∧
          last <:+: extra) := by
  obtain ⟨start, found, htext, hfound, hfirst⟩ :=
    (afterWords?_eq_some_iff hm.ne_nil hname).1 hafter
  have hle : start.length ≤ before.length := by
    refine Nat.le_of_not_lt fun hlt => ?_
    exact hfirst _ hlt (occursAt_append hm before rest)
  obtain ⟨between, rfl⟩ : ∃ between, before = start ++ between := by
    have hprefix : start <+: before :=
      List.prefix_of_prefix_length_le ⟨_, htext.symm⟩ (List.prefix_append _ _) hle
    exact hprefix.imp fun _ h => h.symm
  rw [List.append_assoc, List.append_cancel_left_eq] at htext
  by_cases hnil : between = []
  · -- the first occurrence is the name's own place
    subst hnil
    have hhere := dropWords?_of_spaced hname hm rest
    rw [← List.nil_append (m ++ rest), htext, dropWords?_of_spaced hname hfound] at hhere
    cases hhere
    exact .inl ⟨rfl, by simpa using hfirst⟩
  · have hlt : start.length < (start ++ between).length := by
      have hpos := List.length_pos_iff.2 hnil
      rw [List.length_append]
      omega
    have hblank : ¬ AllBlank (start ++ between) := by
      -- a word starts at the occurrence
      intro hall
      obtain ⟨d, others, rfl⟩ := List.exists_cons_of_ne_nil hnil
      refine hfound.not_parted hname arguments ?_
      rw [← htext]
      rintro _ ⟨⟩
      exact hall d (by simp)
    obtain ⟨lead, c, hlead, hc⟩ := hbefore.resolve_left hblank
    obtain ⟨others, d, rfl⟩ := (List.eq_nil_or_concat between).resolve_left hnil
    have hd : d = c := by simpa using congrArg List.getLast? hlead
    have hnext : found ++ arguments = others ++ d :: (m ++ rest) := by rw [← htext]; simp
    rw [← hd] at hc
    refine .inr ⟨hblank, ⟨start.length, hlt, ?_⟩, hfound.ends_before hm hname hc hnext⟩
    rw [List.append_assoc, htext]
    exact occursAt_append hfound start arguments

/-- **The arguments keep all text after the name.** They are what follows the name at its own
place, with some text before it. That text is empty exactly when the words of the name occur
nowhere before that place, as when no word is skipped; otherwise it holds the last word of the
name. The words of the name are always found. -/
theorem arguments_keep_remainder (config : Config) (t : Text) :
    (∀ shown, ofText config t ≠ .error (.nameNotFound shown)) ∧
      ∀ head, ofText config t = .ok head → ∃ name last extra,
        walk config none t.words = some (head.returnVariable, name) ∧
        leadWords config t ++ name <+: t.words ∧ name.getLast? = some last ∧
        head.arguments = extra ++ remainder config name t ∧
        (extra = [] ↔ ∀ i < nameOffset config t, ¬ OccursAt name t i) ∧
        (extra ≠ [] → last <:+: extra) ∧
        (leadWords config t = [] → extra = []) := by
  refine ⟨ofText_ne_nameNotFound config t, fun head h => ?_⟩
  obtain ⟨name, hwalk, -, hafter⟩ := ofText_eq_ok_iff.1 h
  obtain ⟨others, hwords, htakes⟩ := words_of_walk hwalk
  obtain ⟨before, m, htext, hoffset, hm, hname, hbefore⟩ := exists_namePlace hwalk
  have hprefix : leadWords config t ++ name <+: t.words := ⟨others, by rw [hwords]; simp⟩
  have hblank : AllBlank before ∨ ∃ lead c, before = lead ++ [c] ∧ isBlank c = true :=
    hbefore.imp And.right And.right
  have hplace := arguments_of_place hname hm hblank (by rw [← htext]; exact hafter)
  rw [← htext, hoffset] at hplace
  rcases hplace with ⟨hrest, hnone⟩ | ⟨hall, ⟨i, hi, hoccurs⟩, extra, last, hextra, hlast, hin⟩
  · have hlast := List.getLast?_eq_some_getLast htakes.nonempty
    exact ⟨name, _, [], hwalk, hprefix, hlast, hrest, by simpa using hnone, by simp, by simp⟩
  · have hextrane : extra ≠ [] := by
      rintro rfl
      exact (hname last (List.mem_of_getLast? hlast)).1 (List.infix_nil.1 hin)
    have hskipped : leadWords config t ≠ [] :=
      (hbefore.resolve_left fun hnone => hall hnone.2).1
    refine ⟨name, last, extra, hwalk, hprefix, hlast, hextra, ?_, fun _ => hin,
      fun hnil => absurd hnil hskipped⟩
    constructor
    · exact fun hnil => absurd hnil hextrane
    · exact fun hnone => absurd hoccurs (hnone i hi)

end CallHead

end ProcCall
