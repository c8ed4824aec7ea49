import ProcCall.Proofs.Machine
import ProcCall.Proofs.Phrases
import ProcCall.Proofs.Stages

/-!
# Reading written slots

A slot whose value and name are words or literals is **writable**: its text is spelled by
few lexemes (`Slot.lexemes`), which are a phrase of the grammar that denotes it. A list of
writable slots, written with commas, reads back as itself.

* `Writable.phrase`: the tokens of one written slot.
* `spelled_listLexemes`, `chain_listLexemes`, `phrases_listLexemes`: a list of them.
* `ofText_written`: written slots are read back, with blanks around them.
-/

namespace ProcCall

namespace Lexeme

/-- The blank that separates the parts of a written slot. -/
def space : Lexeme := ⟨.blank, [' ']⟩

/-- The comma between written slots. -/
def comma : Lexeme := ⟨.comma, [',']⟩

/-- The equals sign after the name of a written slot. -/
def equals : Lexeme := ⟨.equals, ['=']⟩

/-- The keyword of a written slot that is output. -/
def outputKeyword : Lexeme := ⟨.text, "OUTPUT".toList⟩

/-- A value or a name as a lexeme: a literal if it starts with a quote mark, else a word. -/
def ofValue (v : Text) : Lexeme := ⟨if v.head? = some '\'' then .quoted else .text, v⟩

/-- Blanks as lexemes, one at most. -/
def blankRun (t : Text) : List Lexeme := if t = [] then [] else [⟨.blank, t⟩]

variable {v t : Text} {l : Lexeme}

theorem ofValue_kind (v : Text) : (ofValue v).kind = .text ∨ (ofValue v).kind = .quoted := by
  unfold ofValue
  split
  · exact .inr rfl
  · exact .inl rfl

/-- A word is a well-formed value. -/
theorem wellFormed_ofValue (hne : v ≠ []) (h : ∀ c ∈ v, IsWordChar c) : WellFormed (ofValue v) := by
  obtain ⟨c, rest, rfl⟩ := List.exists_cons_of_ne_nil hne
  have hc : c ≠ '\'' := (h c List.mem_cons_self).1
  unfold ofValue
  rw [if_neg (by simpa using hc)]
  exact ⟨hne, h⟩

@[simp] theorem spelled_blankRun (t : Text) : spelled (blankRun t) = t := by
  unfold blankRun
  split
  · next h => rw [h]; rfl
  · simp

theorem wellFormed_blankRun (h : ∀ c ∈ t, Text.isBlank c = true) :
    ∀ l ∈ blankRun t, WellFormed l := by
  unfold blankRun
  split
  · simp
  · next hne =>
    intro l hl
    rw [List.mem_singleton.1 hl]
    exact ⟨hne, h⟩

theorem chain_blankRun (t : Text) : (blankRun t).IsChain MayFollow := by
  unfold blankRun
  split <;> simp

theorem head_blankRun (h : l ∈ (blankRun t).head?) : l.kind = .blank := by
  unfold blankRun at h
  split at h
  · cases h
  · cases h; rfl

theorem allBlank_blankRun (position : Int) (t : Text) :
    Token.AllBlank (placed position (blankRun t)) := by
  unfold blankRun
  split
  · intro x hx; cases hx
  · intro x hx
    rw [List.mem_singleton.1 hx]

theorem mayFollow_of_ne {a b : Lexeme} (h : a.kind ≠ b.kind) : MayFollow a b := by
  intro heq
  exact absurd heq h

/-- Whether a lexeme is a **separator**: neither a word nor a literal. -/
def IsSeparator (l : Lexeme) : Prop := l.kind ≠ .text ∧ l.kind ≠ .quoted

theorem isSeparator_of_blank (h : l.kind = .blank) : IsSeparator l := by
  constructor <;> simp [h]

theorem mayFollow_separator (h : IsSeparator l) (v : Text) :
    MayFollow (ofValue v) l ∧ MayFollow l (ofValue v) := by
  rcases ofValue_kind v with hk | hk
  · exact ⟨mayFollow_of_ne (by rw [hk]; exact h.1.symm), mayFollow_of_ne (by rw [hk]; exact h.1)⟩
  · exact ⟨mayFollow_of_ne (by rw [hk]; exact h.2.symm), mayFollow_of_ne (by rw [hk]; exact h.2)⟩

theorem wellFormed_space : WellFormed space := by
  refine ⟨by simp [space], fun c hc => ?_⟩
  rw [List.mem_singleton.1 hc]; rfl

theorem wellFormed_outputKeyword : WellFormed outputKeyword := by
  have hword : ∀ c ∈ "OUTPUT".toList, IsWordChar c := List.all_iff_forall_prop.1 rfl
  exact ⟨by simp [outputKeyword], hword⟩

end Lexeme

namespace Slot

open Lexeme

/-- The lexemes of a written slot. -/
def lexemes (s : Slot) : List Lexeme :=
  (match s.name with
    | none => []
    | some n => [Lexeme.ofValue n, space, equals, space]) ++
  Lexeme.ofValue s.value :: if s.isOutput then [space, outputKeyword] else []

/-- Whether a slot is **writable**: it has a name if it is named, its name and its value are
words or literals, and it is no output where `OUTPUT` is no keyword. -/
structure Writable (config : Config) (s : Slot) : Prop where
  kind : s.isNamed = s.name.isSome
  value : (Lexeme.ofValue s.value).WellFormed
  name : ∀ n ∈ s.name, (Lexeme.ofValue n).WellFormed
  keyword : s.isOutput = true → config.isOutputKeyword "OUTPUT".toList = true

variable {config : Config} {s : Slot} {slots : List Slot} {position : Int} {blanks : List Token}
  {ls : List Lexeme} {after : Text}

theorem Writable.eq_ofValue (h : Writable config s) : s = ofValue s.name s.value s.isOutput := by
  obtain ⟨kind, value, name, isOutput⟩ := s
  have hkind := h.kind
  cases kind <;> cases name <;> simp_all [isNamed, ofValue, positional, named]

theorem spelled_lexemes (h : Writable config s) : spelled s.lexemes = s.text := by
  rw [h.eq_ofValue]
  cases s.name <;> cases s.isOutput <;>
    simp [ofValue, lexemes, text, positional, named, isNamed, nameText, space, equals,
      outputKeyword, Lexeme.ofValue]

theorem Writable.wellFormed (h : Writable config s) : ∀ l ∈ s.lexemes, WellFormed l := by
  have hvalue : ∀ l ∈ Lexeme.ofValue s.value :: (if s.isOutput then [space, outputKeyword] else []),
      WellFormed l := by
    intro l hl
    rcases List.mem_cons.1 hl with rfl | hl
    · exact h.value
    · cases hout : s.isOutput with
      | false => rw [hout] at hl; cases hl
      | true =>
        rw [hout] at hl
        simp only [if_true, List.mem_cons, List.not_mem_nil, or_false] at hl
        rcases hl with rfl | rfl
        · exact wellFormed_space
        · exact wellFormed_outputKeyword
  unfold lexemes
  intro l hl
  rcases List.mem_append.1 hl with hl | hl
  · cases hn : s.name with
    | none => rw [hn] at hl; cases hl
    | some n =>
      rw [hn] at hl
      simp only [List.mem_cons, List.not_mem_nil, or_false] at hl
      rcases hl with rfl | rfl | rfl | rfl
      · exact h.name n (by rw [hn]; rfl)
      · exact wellFormed_space
      · exact rfl
      · exact wellFormed_space
  · exact hvalue l hl

/-- No two neighbours in a written slot could be one lexeme, nor its end and a separator. -/
theorem chain_lexemes_append (s : Slot) (hls : ls.IsChain MayFollow)
    (hhead : ∀ l ∈ ls.head?, IsSeparator l) : (s.lexemes ++ ls).IsChain MayFollow := by
  have hspace : IsSeparator space := isSeparator_of_blank rfl
  have hend : ((Lexeme.ofValue s.value :: if s.isOutput then [space, outputKeyword] else []) ++
      ls).IsChain MayFollow := by
    cases s.isOutput with
    | false => exact hls.cons fun l hl => (mayFollow_separator (hhead l hl) s.value).1
    | true =>
      have hkey : ∀ l ∈ ls.head?, MayFollow outputKeyword l :=
        fun l hl => mayFollow_of_ne (Ne.symm (hhead l hl).1)
      exact .cons_cons (mayFollow_separator hspace s.value).1
        (.cons_cons (mayFollow_of_ne (by decide)) (hls.cons hkey))
  unfold lexemes
  cases s.name with
  | none => exact hend
  | some n =>
    have hvalue := hend.cons_cons (mayFollow_separator hspace s.value).2
    exact .cons_cons (mayFollow_separator hspace n).1 (.cons_cons (mayFollow_of_ne (by decide))
      (.cons_cons (mayFollow_of_ne (by decide)) hvalue))

/-- A written slot starts with a value or a name. -/
theorem head_lexemes (s : Slot) (ls : List Lexeme) :
    ∃ v, (s.lexemes ++ ls).head? = some (Lexeme.ofValue v) := by
  unfold lexemes
  cases s.name with
  | none => exact ⟨s.value, rfl⟩
  | some n => exact ⟨n, rfl⟩

/-- **The tokens of a written slot** are a phrase, with what closes it. -/
theorem Writable.phrase (h : Writable config s) (position : Int) (hb : Token.AllBlank blanks)
    (last : Token) (hc : last.closes = true) :
    SlotPhrase config (placed position s.lexemes ++ (blanks ++ [last])) s := by
  -- from the end of the phrase to its start: keyword, value, name
  have hisValue : ∀ v p, Token.isValue ⟨(Lexeme.ofValue v).kind, v, p⟩ = true := by
    intro v p
    rcases ofValue_kind v with hk | hk <;> simp [Token.isValue, hk]
  have hblank : ∀ p, Token.AllBlank [⟨.blank, [' '], p⟩] := by
    intro p t ht
    rw [List.mem_singleton.1 ht]
  have hend : ∀ p, SlotEnd config (placed p (if s.isOutput then [space, outputKeyword] else []) ++
      (blanks ++ [last])) s.isOutput := by
    intro p
    cases hout : s.isOutput with
    | false => exact .plain blanks last hb hc
    | true =>
      exact .output [_] ⟨.text, "OUTPUT".toList, _⟩ blanks last (hblank p) (by simp)
        ⟨rfl, h.keyword hout⟩ hb hc
  rw [h.eq_ofValue]
  unfold ofValue lexemes
  cases s.name with
  | none => exact .positional ⟨_, s.value, position⟩ _ s.isOutput (hisValue _ _) (hend _)
  | some n =>
    exact .named ⟨_, n, position⟩ [_] ⟨.equals, ['='], _⟩ [_] ⟨_, s.value, _⟩ _ s.isOutput
      (hisValue _ _) (hblank _) rfl (hblank _) (hisValue _ _) (hend _)

/-- The lexemes of written slots, with commas between them and blanks after the last. -/
def listLexemes (after : Text) : List Slot → List Lexeme
  | [] => []
  | s :: rest =>
    s.lexemes ++ if rest = [] then blankRun after else comma :: space :: listLexemes after rest

theorem listLexemes_cons (h : slots ≠ []) : listLexemes after (s :: slots) =
    s.lexemes ++ comma :: space :: listLexemes after slots := by
  rw [listLexemes, if_neg h]

theorem spelled_listLexemes (h : ∀ s ∈ slots, Writable config s) (hne : slots ≠ []) :
    spelled (listLexemes after slots) = Text.commaList (slots.map text) ++ after := by
  unfold Text.commaList
  induction slots with
  | nil => exact absurd rfl hne
  | cons s rest ih =>
    have hs := spelled_lexemes (h s List.mem_cons_self)
    by_cases hrest : rest = []
    · subst hrest
      simp [listLexemes, hs]
    · have hspelled := ih (fun x hx => h x (List.mem_cons_of_mem _ hx)) hrest
      have hmap : rest.map text ≠ [] := by simpa using hrest
      rw [listLexemes_cons hrest, List.map_cons, List.intercalate_cons_of_ne_nil hmap,
        spelled_append, hs, spelled_cons, spelled_cons, hspelled]
      simp [comma, space]

theorem wellFormed_listLexemes (h : ∀ s ∈ slots, Writable config s)
    (ha : ∀ c ∈ after, Text.isBlank c = true) : ∀ l ∈ listLexemes after slots, WellFormed l := by
  induction slots with
  | nil => intro l hl; cases hl
  | cons s rest ih =>
    have hs := (h s List.mem_cons_self).wellFormed
    have hrest := ih fun x hx => h x (List.mem_cons_of_mem _ hx)
    intro l hl
    rcases List.mem_append.1 hl with hl | hl
    · exact hs l hl
    · split at hl
      · exact wellFormed_blankRun ha l hl
      · rcases List.mem_cons.1 hl with rfl | hl
        · exact rfl
        · rcases List.mem_cons.1 hl with rfl | hl
          · exact wellFormed_space
          · exact hrest l hl

theorem head_listLexemes (after : Text) (hne : slots ≠ []) :
    ∃ v, (listLexemes after slots).head? = some (Lexeme.ofValue v) := by
  cases slots with
  | nil => exact absurd rfl hne
  | cons s rest => exact head_lexemes s _

/-- A separator may stand before written slots. -/
theorem chain_cons_listLexemes {l : Lexeme} (hl : IsSeparator l)
    (h : (listLexemes after slots).IsChain MayFollow) (hne : slots ≠ []) :
    (l :: listLexemes after slots).IsChain MayFollow := by
  obtain ⟨v, hv⟩ := head_listLexemes after hne
  refine h.cons fun m hm => ?_
  rw [hv] at hm
  cases hm
  exact (mayFollow_separator hl v).2

theorem chain_listLexemes (after : Text) (slots : List Slot) :
    (listLexemes after slots).IsChain MayFollow := by
  induction slots with
  | nil => exact .nil
  | cons s rest ih =>
    unfold listLexemes
    by_cases hrest : rest = []
    · rw [if_pos hrest]
      exact chain_lexemes_append s (chain_blankRun after)
        fun l hl => isSeparator_of_blank (head_blankRun hl)
    · rw [if_neg hrest]
      have hspace := chain_cons_listLexemes (isSeparator_of_blank (l := space) rfl) ih hrest
      refine chain_lexemes_append s (.cons_cons (mayFollow_of_ne (by decide)) hspace) ?_
      -- the comma follows the slot
      intro l hl
      cases hl
      exact ⟨by decide, by decide⟩

theorem phrases_blanks {ts : List Token} (hb : Token.AllBlank blanks)
    (h : SlotPhrases config ts slots) : SlotPhrases config (blanks ++ ts) slots := by
  induction blanks with
  | nil => exact h
  | cons t rest ih =>
    exact .skip t _ slots (.inl (hb t List.mem_cons_self))
      (ih fun x hx => hb x (List.mem_cons_of_mem _ hx))

/-- The tokens of written slots are phrases, one a slot. -/
theorem phrases_listLexemes (after : Text) (h : ∀ s ∈ slots, Writable config s) (hne : slots ≠ [])
    (position : Int) : SlotPhrases config (place position (listLexemes after slots)) slots := by
  induction slots generalizing position with
  | nil => exact absurd rfl hne
  | cons s rest ih =>
    have hs := h s List.mem_cons_self
    by_cases hrest : rest = []
    · subst hrest
      have hblank := allBlank_blankRun (position + (spelled s.lexemes).length) after
      have hphrase := hs.phrase position hblank
        (.atEnd (position + (spelled s.lexemes).length + after.length)) rfl
      have hphrases := SlotPhrases.slot _ [] s [] hphrase .none
      rw [listLexemes, if_pos rfl, place_append, place_eq_placed, spelled_blankRun]
      simpa using hphrases
    · have hmore := ih (fun x hx => h x (List.mem_cons_of_mem _ hx)) hrest
      have hnone : Token.AllBlank [] := by intro t ht; cases ht
      have hphrase := hs.phrase position hnone
        ⟨.comma, [','], position + (spelled s.lexemes).length⟩ rfl
      rw [listLexemes_cons hrest, place_append, comma, space, place, place, List.append_cons]
      exact .slot _ _ s rest hphrase (.skip _ _ rest (.inl rfl) (hmore _))

/-- A text of blanks has no slots. -/
theorem ofText_blanks {t : Text} (h : ∀ c ∈ t, Text.isBlank c = true) :
    Slot.ofText config t = .ok [] := by
  have htokens := Token.ofText_spelled (wellFormed_blankRun h) (chain_blankRun _)
  rw [spelled_blankRun, place_eq_placed, spelled_blankRun] at htokens
  have hend : SlotPhrases config [Token.atEnd (0 + t.length)] [] := .skip _ [] [] (.inr rfl) .none
  exact Slot.ofText_eq_ok_iff.2
    ⟨_, htokens, (phrases_blanks (allBlank_blankRun 0 t) hend).ofTokens_eq_ok⟩

/-- **Written slots are read back**, with commas between them and blanks around them. -/
theorem ofText_written (before after : Text) (h : ∀ s ∈ slots, Writable config s)
    (hb : ∀ c ∈ before, Text.isBlank c = true) (ha : ∀ c ∈ after, Text.isBlank c = true) :
    Slot.ofText config (before ++ Text.commaList (slots.map text) ++ after) = .ok slots := by
  by_cases hne : slots = []
  · subst hne
    have hall : ∀ c ∈ before ++ after, Text.isBlank c = true := by
      intro c hc
      rcases List.mem_append.1 hc with hc | hc
      · exact hb c hc
      · exact ha c hc
    have hnone : before ++ Text.commaList (List.map text []) ++ after = before ++ after := by
      simp [Text.commaList]
    rw [hnone, ofText_blanks hall]
  · have hlist := chain_listLexemes after slots
    have hchain : (blankRun before ++ listLexemes after slots).IsChain MayFollow := by
      unfold blankRun
      split
      · exact hlist
      · exact chain_cons_listLexemes (isSeparator_of_blank rfl) hlist hne
    have hform : ∀ l ∈ blankRun before ++ listLexemes after slots, WellFormed l := by
      intro l hl
      rcases List.mem_append.1 hl with hl | hl
      · exact wellFormed_blankRun hb l hl
      · exact wellFormed_listLexemes h ha l hl
    have htokens := Token.ofText_spelled hform hchain
    rw [spelled_append, spelled_blankRun, spelled_listLexemes h hne, place_append,
      ← List.append_assoc] at htokens
    have hphrases := phrases_blanks (allBlank_blankRun 0 before)
      (phrases_listLexemes after h hne (0 + (spelled (blankRun before)).length))
    exact Slot.ofText_eq_ok_iff.2 ⟨_, htokens, hphrases.ofTokens_eq_ok⟩

/-- Written slots as they stand in a call, one space after its name. -/
theorem ofText_space_written (h : ∀ s ∈ slots, Writable config s) :
    Slot.ofText config (' ' :: Text.commaList (slots.map text)) = .ok slots := by
  have hread := ofText_written [' '] [] h (List.forall_mem_singleton.2 rfl) (by simp)
  rwa [List.append_nil, List.singleton_append] at hread

end Slot

end ProcCall
