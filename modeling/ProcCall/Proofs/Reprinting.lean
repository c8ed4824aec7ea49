import ProcCall.Proofs.Acceptance
import ProcCall.Proofs.Lossless
import ProcCall.Proofs.Rendering
import ProcCall.Proofs.Splitting

/-!
# Reading a written call

A call that was read from a text is written in a form of its own: `EXEC`, the return variable,
the words of the name with single spaces, the slots. The form reads as the same call. Its slots
come from tokens, so they are writable; its name stands after words that are skipped, and the
walk takes it again. The search for the name finds it unless its words occur before.

* `Slot.writable_of_ofText`: slots that were read are writable.
* `Call.walk_text`: the walk over the written form.
* `Call.head_text`: the head of the written form.
* `Call.written_read_back`: the call that the written form is.
-/

namespace ProcCall

variable {config : Config} {t : Text} {ts us : List Token} {s : Slot} {slots : List Slot}

/-! ## Slots come from tokens -/

namespace Slot

/-- Whether the value and the name of a slot are values of some tokens. -/
structure MadeOf (ts : List Token) (s : Slot) : Prop where
  kind : s.isNamed = s.name.isSome
  value : ∃ token ∈ ts, token.isValue = true ∧ token.value = s.value
  name : ∀ n ∈ s.name, ∃ token ∈ ts, token.isValue = true ∧ token.value = n

theorem MadeOf.mono (h : MadeOf ts s) (hsub : ts ⊆ us) : MadeOf us s where
  kind := h.kind
  value := h.value.imp fun _ ht => ⟨hsub ht.1, ht.2⟩
  name n hn := (h.name n hn).imp fun _ ht => ⟨hsub ht.1, ht.2⟩

end Slot

theorem SlotPhrase.madeOf (h : SlotPhrase config ts s) : Slot.MadeOf ts s := by
  cases h with
  | positional value rest isOutput hv hend =>
    exact ⟨rfl, ⟨value, List.mem_cons_self, hv, rfl⟩, by rintro _ ⟨⟩⟩
  | named name blanks equals others value rest isOutput hn hb he ho hv hend =>
    refine ⟨rfl, ⟨value, by simp, hv, rfl⟩, ?_⟩
    rintro _ ⟨⟩
    exact ⟨name, List.mem_cons_self, hn, rfl⟩

theorem SlotPhrases.madeOf (h : SlotPhrases config ts slots) : ∀ s ∈ slots, Slot.MadeOf ts s := by
  induction h with
  | none => simp
  | skip token ts slots hskip hphrases ih =>
    exact fun s hs => (ih s hs).mono (List.subset_cons_self _ _)
  | slot phrase ts s slots hphrase hphrases ih =>
    refine List.forall_mem_cons.2 ⟨hphrase.madeOf.mono (List.subset_append_left _ _), ?_⟩
    exact fun s hs => (ih s hs).mono (List.subset_append_right _ _)

namespace Lexeme

/-- A word or a literal is told from its first character. -/
theorem ofValue_value {l : Lexeme} (h : WellFormed l) (hk : l.kind = .text ∨ l.kind = .quoted) :
    ofValue l.value = l := by
  obtain ⟨kind, value⟩ := l
  unfold ofValue
  rcases hk with rfl | rfl
  · obtain ⟨c, rest, rfl⟩ := List.exists_cons_of_ne_nil h.1
    have hc : c ≠ '\'' := (h.2 c List.mem_cons_self).1
    rw [if_neg (by simpa using hc)]
  · obtain ⟨body, rfl, -⟩ := h
    rfl

end Lexeme

/-- The values among the tokens of a text are words and literals. -/
theorem Token.wellFormed_of_ofText {token : Token} (h : ofText t = .ok ts) (ht : token ∈ ts)
    (hv : token.isValue = true) : (Lexeme.ofValue token.value).WellFormed := by
  rcases wellFormed_or_atEnd h ht with hform | rfl
  · have hkind : token.kind = .text ∨ token.kind = .quoted := by simpa [isValue] using hv
    have hsame : Lexeme.ofValue token.value = token.lexeme := Lexeme.ofValue_value hform hkind
    rwa [hsame]
  · -- the end of the input is no value
    cases hv

/-- **Slots that were read are writable**, when `OUTPUT` is a keyword. -/
theorem Slot.writable_of_ofText (hkeyword : config.isOutputKeyword "OUTPUT".toList = true)
    (h : Slot.ofText config t = .ok slots) : ∀ s ∈ slots, Writable config s := by
  obtain ⟨ts, htokens, hslots⟩ := Slot.ofText_eq_ok_iff.1 h
  intro s hs
  have hmade := (Slot.ofTokens_eq_ok_iff.1 hslots).madeOf s hs
  refine ⟨hmade.kind, ?_, fun n hn => ?_, fun _ => hkeyword⟩
  · obtain ⟨token, hmem, hv, heq⟩ := hmade.value
    rw [← heq]
    exact Token.wellFormed_of_ofText htokens hmem hv
  · obtain ⟨token, hmem, hv, heq⟩ := hmade.name n hn
    rw [← heq]
    exact Token.wellFormed_of_ofText htokens hmem hv

/-! ## The written form -/

namespace Call

open Text CallHead

variable {c : Call} {name : List Text}

/-- What a call is written with before its procedure name. -/
def leadText (c : Call) : Text :=
  match c.returnVariable with
  | some (v :: rest) => "EXEC ".toList ++ (v :: rest) ++ " = ".toList
  | _ => "EXEC ".toList

/-- What a call is written with after its procedure name. -/
def argumentText (c : Call) : Text :=
  if c.slots.isEmpty then [] else ' ' :: Text.commaList (c.slots.map Slot.text)

/-- **The written form** of a call. -/
theorem text_eq (c : Call) : c.text = c.leadText ++ (c.procedureName ++ c.argumentText) := by
  have hhead : c.headText = c.leadText ++ c.procedureName := by
    unfold headText leadText
    cases c.returnVariable with
    | none => rfl
    | some v => cases v <;> rfl
  unfold text argumentText
  rw [hhead]
  split <;> simp

/-- The words that a call is written with before its procedure name. -/
def skippedWords (c : Call) : List Text :=
  match c.returnVariable with
  | none => ["EXEC".toList]
  | some v => ["EXEC".toList, v, ['=']]

variable (config) in
/-- Whether a call is **named** by the given words: the walk takes them as a name, and it
passes the return variable. -/
structure NamedBy (c : Call) (name : List Text) : Prop where
  joined : c.procedureName = unwords name
  isWord : ∀ w ∈ name, IsWord w
  first : ∀ w ∈ name.head?, isSkippable config w = false
  takes : ∃ others, Takes [] name others
  returnVariable : ∀ v ∈ c.returnVariable,
    IsWord v ∧ isSkippable config v = true ∧ isIdle config v = false

/-- A call that was read is named by words of its text. -/
theorem exists_namedBy (h : ofText config t = .ok c) : ∃ name, NamedBy config c name := by
  obtain ⟨head, slots, hhead, -, rfl⟩ := Call.ofText_eq_ok_iff.1 h
  obtain ⟨name, hwalk, hname, -⟩ := CallHead.ofText_eq_ok_iff.1 hhead
  obtain ⟨skipped, others, hwords, hskip, hfirst, htakes, hfound⟩ := walk_eq_some_iff.1 hwalk
  have hword : ∀ w ∈ t.words, IsWord w := fun w hw => isWord_of_mem_words hw
  refine ⟨name, hname, fun w hw => hword w ?_, hfirst, ⟨others, htakes⟩, fun v hv => ?_⟩
  · rw [hwords]; simp [hw]
  · obtain ⟨hmem, hidle⟩ := mem_of_lastReturnVariable (hfound.symm.trans hv)
    refine ⟨hword v ?_, hskip v hmem, hidle⟩
    rw [hwords]; simp [hmem]

namespace NamedBy

theorem spaced (h : NamedBy config c name) : Spaced name c.procedureName := by
  obtain ⟨others, htakes⟩ := h.takes
  rw [h.joined]
  exact spaced_unwords htakes.nonempty

theorem words_leadText (h : NamedBy config c name) (x : Text) :
    words (c.leadText ++ x) = c.skippedWords ++ words x := by
  have hexec : ∀ y, words ("EXEC ".toList ++ y) = "EXEC".toList :: words y := fun y =>
    words_append_blank (c := ' ') rfl "EXEC".toList y
  have hequals : ∀ y, words (" = ".toList ++ y) = ['='] :: words y := fun y =>
    words_append_blank (c := ' ') rfl [' ', '='] y
  unfold leadText skippedWords
  cases hv : c.returnVariable with
  | none => exact hexec x
  | some v =>
    have hword := (h.returnVariable v hv).1
    obtain ⟨d, rest, rfl⟩ := List.exists_cons_of_ne_nil hword.1
    have hparted : Parted (" = ".toList ++ x) := parted_cons (c := ' ') rfl _
    simp only [List.append_assoc]
    rw [hexec, words_append_of_parted hword hparted, hequals]
    rfl

theorem words_text (h : NamedBy config c name) :
    words c.text = c.skippedWords ++ (name ++ words c.argumentText) := by
  have hparted : Parted c.argumentText := by
    unfold argumentText
    split
    · exact parted_nil
    · exact parted_cons rfl _
  rw [text_eq, h.words_leadText, words_spaced h.spaced h.isWord hparted]

/-- Every word before the name is skipped, and the return variable is found among them. -/
theorem skipped (h : NamedBy config c name) (hexec : "exec".toList ∈ config.execKeywords) :
    (∀ w ∈ c.skippedWords, isSkippable config w = true) ∧
      c.returnVariable = lastReturnVariable config none c.skippedWords := by
  have hidle : isIdle config "EXEC".toList = true := by
    have hkeyword : config.isExecKeyword "EXEC".toList = true := List.contains_iff_mem.2 hexec
    rw [isIdle, hkeyword]; rfl
  have hequals : isIdle config ['='] = true := by simp [isIdle]
  have hskip : ∀ w, isIdle config w = true → isSkippable config w = true := by
    intro w hw
    rw [isSkippable, hw]; rfl
  unfold skippedWords
  -- only its being passed over matters of the keyword
  generalize "EXEC".toList = exec at hidle
  cases hv : c.returnVariable with
  | none =>
    refine ⟨List.forall_mem_singleton.2 (hskip _ hidle), ?_⟩
    simp [lastReturnVariable, hidle]
  | some v =>
    obtain ⟨-, hvskip, hvidle⟩ := h.returnVariable v hv
    refine ⟨?_, ?_⟩
    · intro w hw
      simp only [List.mem_cons, List.not_mem_nil, or_false] at hw
      rcases hw with rfl | rfl | rfl
      · exact hskip _ hidle
      · exact hvskip
      · exact hskip _ hequals
    · simp [lastReturnVariable, hidle, hvidle, hequals]

/-- **The walk over the written form** takes the name again. -/
theorem walk_text (h : NamedBy config c name) (hexec : "exec".toList ∈ config.execKeywords)
    (hcomplete : isComplete c.procedureName = true ∨ c.slots = []) :
    walk config none c.text.words = some (c.returnVariable, name) := by
  obtain ⟨hskip, hfound⟩ := h.skipped hexec
  obtain ⟨others, htakes⟩ := h.takes
  refine walk_eq_some_iff.2
    ⟨c.skippedWords, words c.argumentText, h.words_text, hskip, h.first, ?_, hfound⟩
  refine ⟨htakes.nonempty, htakes.unfinished, ?_⟩
  -- the name ends where it did: its brackets are closed, or no words are left to take
  rcases hcomplete with hcomplete | hslots
  · rw [h.joined] at hcomplete
    exact .inr hcomplete
  · refine .inl ?_
    rw [argumentText, hslots]
    rfl

/-- **The head of the written form**, when the name does not occur before its place. -/
theorem head_text (h : NamedBy config c name) (hexec : "exec".toList ∈ config.execKeywords)
    (hcomplete : isComplete c.procedureName = true ∨ c.slots = [])
    (hfirst : ∀ i < c.leadText.length, ¬ OccursAt name c.text i) :
    CallHead.ofText config c.text = .ok ⟨c.returnVariable, c.procedureName, c.argumentText⟩ := by
  have hafter : c.text.afterWords? name = some c.argumentText :=
    (afterWords?_eq_some_iff h.spaced.ne_nil h.isWord).2
      ⟨c.leadText, c.procedureName, c.text_eq, h.spaced, hfirst⟩
  exact CallHead.ofText_eq_ok_iff.2 ⟨name, h.walk_text hexec hcomplete, h.joined, hafter⟩

end NamedBy

/-- The written arguments are read back. -/
theorem slots_argumentText (h : ∀ s ∈ c.slots, Slot.Writable config s) :
    Slot.ofText config c.argumentText = .ok c.slots := by
  unfold argumentText
  split
  · next hnone =>
    rw [List.isEmpty_iff.1 hnone]
    exact Slot.ofText_blanks (by simp)
  · exact Slot.ofText_space_written h

/-- **A written call is read as the same call**: a call that was read from any text is what its
written form reads as, when `EXEC` and `OUTPUT` are keywords, the brackets of the name are
closed or there are no slots, and the words of the name occur nowhere before the place where
the name is written. -/
theorem written_read_back (h : ofText config t = .ok c)
    (hexec : "exec".toList ∈ config.execKeywords)
    (houtput : "OUTPUT".toList ∈ config.outputKeywords)
    (hcomplete : isComplete c.procedureName = true ∨ c.slots = [])
    (hfirst : ∀ i < c.leadText.length, ¬ OccursAt c.procedureName.words c.text i) :
    ofText config c.text = .ok c := by
  obtain ⟨name, hname⟩ := exists_namedBy h
  -- the words of the name are the ones that the walk took
  have hwords : c.procedureName.words = name := by
    have hspaced := words_spaced hname.spaced hname.isWord parted_nil
    simpa [words_nil] using hspaced
  rw [hwords] at hfirst
  have hkeyword : config.isOutputKeyword "OUTPUT".toList = true := List.contains_iff_mem.2 houtput
  obtain ⟨head, slots, -, hslots, rfl⟩ := Call.ofText_eq_ok_iff.1 h
  have hread := slots_argumentText (c := ⟨head.procedureName, head.returnVariable, slots, config⟩)
    (Slot.writable_of_ofText hkeyword hslots)
  exact Call.ofText_eq_ok_iff.2 ⟨_, slots, hname.head_text hexec hcomplete hfirst, hread, rfl⟩

/-- A call with a return variable, a name of two words and slots of both kinds. -/
theorem written_read_back_of_bracketed : ∃ c,
    ofText .standard "execute @r  = [a   b]\t@x='it''s'  out,5".toList = .ok c ∧
      c.text = "EXEC @r = [a b] @x = 'it''s' OUTPUT, 5".toList ∧
      ofText .standard c.text = .ok c := by
  let c : Call := ⟨"[a b]".toList, some "@r".toList,
    [.named "@x".toList "'it''s'".toList true, .positional "5".toList false], .standard⟩
  have h : ofText .standard "execute @r  = [a   b]\t@x='it''s'  out,5".toList = .ok c := rfl
  have hword : ∀ w ∈ c.procedureName.words, IsWord w := fun w hw => isWord_of_mem_words hw
  have hfirst : ∀ i < c.leadText.length, ¬ OccursAt c.procedureName.words c.text i := by
    simp only [occursAt_iff (show c.procedureName.words ≠ [] by decide) hword]
    decide
  exact ⟨c, h, rfl, written_read_back h (by decide) (by decide) (.inl rfl) hfirst⟩

end Call

end ProcCall
