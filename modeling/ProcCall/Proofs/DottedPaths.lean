import ProcCall.Proofs.Brackets
import ProcCall.Proofs.Collapsing
import ProcCall.Proofs.Splitting

/-!
# Dotted paths as procedure names

A name may be a path of parts with dots between them, and a part in brackets may have blanks in
it. Every blank of a path stands inside brackets, after an opening bracket that no closing one has
followed yet. So the words up to it are no complete name, while the whole path is one, and the walk
takes all words of the path and no others.

* `PathPart`, `DottedPath`: paths of plain parts and parts in brackets.
* `DottedPath.lastBracket?_before_blank`, `DottedPath.lastBracket?_ne`: the brackets of a path.
* `DottedPath.takes`: the words of a path are taken as a name.
* `CallHead.dotted_path_taken_whole`: the head of a call with such a name.
-/

namespace ProcCall

open Text

variable {config : Config} {c : Char} {part path m head suffix before after : Text}
  {ws others : List Text}

/-! ## Paths -/

/-- The **parts** of a path: plain ones have no blanks, dots or brackets, and what is in brackets
may have everything but a closing one. -/
inductive PathPart : Text → Prop
  | plain (t : Text) : t ≠ [] →
      (∀ c ∈ t, isBlank c = false ∧ c ≠ '.' ∧ c ≠ '[' ∧ c ≠ ']') → PathPart t
  | bracketed (body : Text) : ']' ∉ body → PathPart ('[' :: (body ++ [']']))

/-- The **paths**: one part, or more with dots between them. -/
inductive DottedPath : Text → Prop
  | one (part : Text) : PathPart part → DottedPath part
  | cons (part path : Text) : PathPart part → DottedPath path → DottedPath (part ++ '.' :: path)

namespace PathPart

/-- A part starts and ends with characters that are no blanks. -/
theorem ends (h : PathPart part) : part ≠ [] ∧ (∀ c ∈ part.head?, isBlank c = false) ∧
    ∀ c ∈ part.getLast?, isBlank c = false := by
  cases h with
  | plain t hne hplain =>
    exact ⟨hne, fun c hc => (hplain c (List.mem_of_mem_head? hc)).1,
      fun c hc => (hplain c (List.mem_of_getLast? hc)).1⟩
  | bracketed body hbody =>
    refine ⟨by simp, ?_, ?_⟩
    · rintro _ ⟨⟩
      rfl
    · rw [← List.cons_append, List.getLast?_concat]
      rintro _ ⟨⟩
      rfl

/-- No bracket of a part is left open. -/
theorem lastBracket?_ne (h : PathPart part) : lastBracket? part ≠ some '[' := by
  cases h with
  | plain t hne hplain =>
    have hnone : lastBracket? part = none := by
      refine lastBracket?_of_forall fun c hc => ?_
      obtain ⟨-, -, hopen, hclose⟩ := hplain c hc
      simp [isBracket, hopen, hclose]
    rw [hnone]
    simp
  | bracketed body hbody =>
    have hclosing : lastBracket? [']'] = some ']' := rfl
    rw [← List.cons_append, lastBracket?_append, hclosing]
    simp

/-- **Before a blank of a part** its bracket is open. -/
theorem lastBracket?_before_blank (h : PathPart part) (heq : part = before ++ c :: after)
    (hc : isBlank c = true) : lastBracket? before = some '[' := by
  cases h with
  | plain t hne hplain =>
    -- plain parts have no blanks
    have hplain := (hplain c (by rw [heq]; simp)).1
    rw [hc] at hplain
    cases hplain
  | bracketed body hbody =>
    cases before with
    | nil =>
      obtain ⟨rfl, -⟩ := List.cons.inj heq
      cases hc
    | cons d before =>
      obtain ⟨rfl, htail⟩ := List.cons.inj heq
      refine lastBracket?_of_open fun hmem => ?_
      -- what stands before the blank is part of what is in brackets
      rcases List.append_eq_append_iff.1 htail with ⟨gap, hbefore, hgap⟩ | ⟨gap, hbody', -⟩
      · cases gap with
        | nil =>
          obtain ⟨rfl, -⟩ := List.cons.inj hgap
          cases hc
        | cons d gap => simp at hgap
      · exact hbody (by rw [hbody']; exact List.mem_append_left _ hmem)

end PathPart

namespace DottedPath

/-- A path starts and ends with characters that are no blanks. -/
theorem ends (h : DottedPath path) : path ≠ [] ∧ (∀ c ∈ path.head?, isBlank c = false) ∧
    ∀ c ∈ path.getLast?, isBlank c = false := by
  induction h with
  | one part hpart => exact hpart.ends
  | cons part path hpart hpath ih =>
    obtain ⟨hne, hfirst, -⟩ := hpart.ends
    obtain ⟨hne', -, hlast⟩ := ih
    refine ⟨by simp, ?_, ?_⟩
    · rwa [List.head?_append_of_ne_nil _ hne]
    · rwa [List.getLast?_append_of_ne_nil _ (by simp), List.getLast?_cons_of_ne_nil hne']

theorem lastBracket?_dot (t : Text) : lastBracket? ('.' :: t) = lastBracket? t := by
  have hdot : lastBracket? ['.'] = none := rfl
  rw [← List.singleton_append, lastBracket?_append, hdot, Option.or_none]

/-- No bracket of a path is left open. -/
theorem lastBracket?_ne (h : DottedPath path) : lastBracket? path ≠ some '[' := by
  induction h with
  | one part hpart => exact hpart.lastBracket?_ne
  | cons part path hpart hpath ih =>
    rw [lastBracket?_append, lastBracket?_dot]
    cases hlast : lastBracket? path with
    | none => exact hpart.lastBracket?_ne
    | some d => rwa [hlast] at ih

/-- **Before a blank of a path** some bracket is open. -/
theorem lastBracket?_before_blank (h : DottedPath path) (heq : path = before ++ c :: after)
    (hc : isBlank c = true) : lastBracket? before = some '[' := by
  have hdot : c ≠ '.' := by
    rintro rfl
    cases hc
  induction h generalizing before with
  | one part hpart => exact hpart.lastBracket?_before_blank heq hc
  | cons part path hpart hpath ih =>
    rcases List.append_eq_append_iff.1 heq with ⟨gap, hbefore, hgap⟩ | ⟨gap, hinside, hgap⟩
    · cases gap with
      | nil => exact absurd (List.cons.inj hgap).1.symm hdot
      | cons d gap =>
        -- the blank stands after the dot
        obtain ⟨rfl, hpath'⟩ := List.cons.inj hgap
        rw [hbefore, lastBracket?_append, lastBracket?_dot, ih hpath', Option.some_or]
    · cases gap with
      | nil => exact absurd (List.cons.inj hgap).1 hdot
      | cons d gap =>
        obtain ⟨rfl, -⟩ := List.cons.inj hgap
        exact hpart.lastBracket?_before_blank hinside hc

end DottedPath

/-! ## The words of a path -/

namespace Text

/-- Blanks are no brackets, so collapsing keeps the brackets. -/
theorem filter_isBracket_collapse (t : Text) :
    (collapse t).filter isBracket = t.filter isBracket := by
  induction t with
  | nil => rfl
  | cons c t ih =>
    cases hc : isBlank c with
    | false =>
      rw [collapse, hc]
      simp only [Bool.false_eq_true, if_false, List.filter_cons, ih]
    | true =>
      have hbracket : isBracket c = false := by
        cases hb : isBracket c with
        | false => rfl
        | true =>
          simp only [isBracket, Bool.or_eq_true, decide_eq_true_eq] at hb
          rcases hb with rfl | rfl
          · cases hc
          · cases hc
      rw [collapse, if_pos hc, List.filter_cons_of_neg (by simp [hbracket]), ← ih]
      split
      · rfl
      · exact List.filter_cons_of_neg (by decide)

theorem lastBracket?_unwords (h : Spaced ws m) (hws : ∀ w ∈ ws, IsWord w) :
    lastBracket? (unwords ws) = lastBracket? m := by
  rw [← collapse_of_spaced h hws, lastBracket?, filter_isBracket_collapse, lastBracket?]

end Text

namespace DottedPath

open CallHead

/-- A path consists of its words. -/
theorem spaced (h : DottedPath path) : Spaced (words path) path := by
  obtain ⟨hne, hfirst, hlast⟩ := h.ends
  refine spaced_words (fun hparted => ?_) hlast
  obtain ⟨c, rest, rfl⟩ := List.exists_cons_of_ne_nil hne
  have hc := hparted c rfl
  rw [hfirst c rfl] at hc
  cases hc

/-- **The words of a path are taken as a name**: before the last of them some bracket is open, and
after it none is. -/
theorem takes (h : DottedPath path) (others : List Text) : Takes [] (words path) others := by
  have hwords : ∀ w ∈ words path, IsWord w := fun w hw => isWord_of_mem_words hw
  refine ⟨h.spaced.ne_nil, ?_, .inr ?_⟩
  · intro a b heq ha hb
    obtain ⟨before, c, after, hpath, hc, hbefore⟩ := h.spaced.exists_blank_between heq ha hb
    have hisWord : ∀ w ∈ a, IsWord w := fun w hw => hwords w (by rw [heq]; simp [hw])
    have hopen : lastBracket? (unwords a) = some '[' := by
      rw [lastBracket?_unwords hbefore hisWord]
      exact h.lastBracket?_before_blank hpath hc
    refine Bool.eq_false_iff.2 fun hcomplete => ?_
    exact isComplete_iff_lastBracket.1 hcomplete hopen
  · rw [List.nil_append, isComplete_iff_lastBracket, lastBracket?_unwords h.spaced hwords]
    exact h.lastBracket?_ne

end DottedPath

/-! ## Calls with such a name -/

namespace CallHead

theorem words_append_of_blank_end (h : ∀ c ∈ head.getLast?, isBlank c = true) (t : Text) :
    words (head ++ t) = words head ++ words t := by
  rcases List.eq_nil_or_concat head with rfl | ⟨lead, c, rfl⟩
  · rfl
  · have hc : isBlank c = true := h c (by simp)
    have hhead := words_append_blank hc lead []
    rw [words_nil, List.append_nil] at hhead
    rw [List.concat_eq_append, List.append_assoc, List.singleton_append, words_append_blank hc,
      hhead]

/-- **A path is taken whole.** After words that are skipped a path is the procedure name, each run
of blanks in it a single space, whatever follows it after a blank. What follows it are the
arguments, if the words of the path occur nowhere before it. -/
theorem dotted_path_taken_whole (config : Config) (head path suffix : Text)
    (hpath : DottedPath path) (hfirst : ∀ w ∈ path.words.head?, isSkippable config w = false)
    (hskipped : ∀ w ∈ head.words, isSkippable config w = true)
    (hhead : ∀ c ∈ head.getLast?, isBlank c = true)
    (hsuffix : ∀ c ∈ suffix.head?, isBlank c = true) :
    ∃ h, ofText config (head ++ (path ++ suffix)) = .ok h ∧ h.procedureName = path.collapse ∧
      ((∀ i < head.length, ¬ OccursAt path.words (head ++ (path ++ suffix)) i) →
        h.arguments = suffix) := by
  have hisWord : ∀ w ∈ path.words, IsWord w := fun w hw => isWord_of_mem_words hw
  have hwords : words (head ++ (path ++ suffix)) = head.words ++ (path.words ++ suffix.words) := by
    rw [words_append_of_blank_end hhead, words_spaced hpath.spaced hisWord hsuffix]
  have hwalk : walk config none (words (head ++ (path ++ suffix))) =
      some (lastReturnVariable config none head.words, path.words) :=
    walk_eq_some_iff.2 ⟨head.words, suffix.words, hwords, hskipped, hfirst, hpath.takes _, rfl⟩
  obtain ⟨arguments, hok⟩ := exists_ofText_of_walk hwalk
  refine ⟨_, hok, (collapse_of_spaced hpath.spaced hisWord).symm, fun hnone => ?_⟩
  -- the first occurrence of the words is the path itself
  have hafter : (head ++ (path ++ suffix)).afterWords? path.words = some suffix :=
    (afterWords?_eq_some_iff hpath.spaced.ne_nil hisWord).2 ⟨head, path, rfl, hpath.spaced, hnone⟩
  obtain ⟨name, hwalk', -, hfound⟩ := ofText_eq_ok_iff.1 hok
  rw [hwalk] at hwalk'
  cases hwalk'
  rw [hafter] at hfound
  exact (Option.some.inj hfound).symm

/-- A path with blanks, a bracket, a quote mark and signs in its brackets. -/
theorem dotted_path_taken_whole_of_three :
    let head : Text := "EXEC @r = ".toList
    let path : Text := "[my  db].dbo.[a, = 'x\t[b.c ]".toList
    let suffix : Text := " @id = 5".toList
    DottedPath path ∧ ∃ h, ofText .standard (head ++ (path ++ suffix)) = .ok h ∧
      h.procedureName = "[my db].dbo.[a, = 'x [b.c ]".toList ∧ h.arguments = suffix := by
  intro head path suffix
  have hpath : DottedPath path :=
    .cons "[my  db]".toList _ (.bracketed "my  db".toList (by decide)) <|
    .cons "dbo".toList _ (.plain _ (by decide) (by simp [isBlank])) <|
    .one _ (.bracketed "a, = 'x\t[b.c ".toList (by decide))
  obtain ⟨h, hok, hname, harguments⟩ := dotted_path_taken_whole .standard head path suffix hpath
    (by decide) (by decide) (by rintro _ ⟨⟩; rfl) (by rintro _ ⟨⟩; rfl)
  have hword : ∀ w ∈ path.words, IsWord w := fun w hw => isWord_of_mem_words hw
  have hnone : ∀ i < head.length, ¬ OccursAt path.words (head ++ (path ++ suffix)) i := by
    simp only [occursAt_iff (show path.words ≠ [] by decide) hword]
    decide
  exact ⟨hpath, h, hok, hname.trans (by decide), harguments hnone⟩

end CallHead

end ProcCall
