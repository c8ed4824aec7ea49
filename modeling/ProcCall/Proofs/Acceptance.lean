import ProcCall.Proofs.Phrases

/-!
# Which token lists are accepted

The reader of tokens accepts the phrases of the grammar and nothing else. The tokens of a
phrase that is not closed yet are an **opening**; there is one way to open for each progress
of the reader. A step of the reader lengthens the opening or closes it as a phrase, so that
whatever a run reads is phrases.

* `Opening.advance`, `Opening.close`: one step.
* `Opening.phrases_of_readFrom`: a run.
* `Slot.ofTokens_eq_ok_iff`: what is read and what the grammar says.
* `Slot.exactly_phrases_accepted`: the same for both outcomes, with what follows for values
  without a blank between them, slots that nothing closes and commas at the end.
-/

namespace ProcCall

open Outcome

variable {config : Config} {p q : Progress} {t : Token} {ts rest : List Token} {slot : Slot}
  {slots : List Slot}

/-! ## What a step can do -/

namespace Progress

theorem advance?_start (h : start.advance? config t = some q) :
    t.kind = .blank ∧ q = start ∨ t.isValue = true ∧ q = ofValue none t.value false := by
  simp only [advance?] at h
  split at h
  · next hb => cases h; exact .inl ⟨hb, rfl⟩
  · split at h
    · next hv => cases h; exact .inr ⟨hv, rfl⟩
    · cases h

theorem advance?_expectValue {name : Text} (h : (expectValue name).advance? config t = some q) :
    t.kind = .blank ∧ q = expectValue name ∨
      t.isValue = true ∧ q = ofValue (some name) t.value false := by
  simp only [advance?] at h
  split at h
  · next hb => cases h; exact .inl ⟨hb, rfl⟩
  · split at h
    · next hv => cases h; exact .inr ⟨hv, rfl⟩
    · cases h

theorem advance?_ofValue {name : Option Text} {value : Text} {spaced : Bool}
    (h : (ofValue name value spaced).advance? config t = some q) :
    t.kind = .blank ∧ q = ofValue name value true ∨
      name = none ∧ t.kind = .equals ∧ q = expectValue value ∨
      spaced = true ∧ t.IsOutputKeyword config ∧ q = ofOutput name value := by
  rw [advance?_ofValue_eq] at h
  split at h
  · next hb => cases h; exact .inl ⟨hb, rfl⟩
  · split at h
    · next he => cases h; exact .inr (.inl ⟨he.2, he.1, rfl⟩)
    · split at h
      · next hk => cases h; exact .inr (.inr ⟨hk.2.1, ⟨hk.1, hk.2.2⟩, rfl⟩)
      · cases h

theorem advance?_ofOutput {name : Option Text} {value : Text}
    (h : (ofOutput name value).advance? config t = some q) :
    t.kind = .blank ∧ q = ofOutput name value := by
  rw [advance?_ofOutput_eq] at h
  split at h
  · next hb => cases h; exact ⟨hb, rfl⟩
  · cases h

/-- **A step** closes the slot in hand, passes an end of input between slots, or advances. -/
theorem step?_cases {closed : Option Slot} (h : p.step? config t = some (closed, q)) :
    (∃ slot, t.closes = true ∧ p.slot? = some slot ∧ closed = some slot ∧ q = start) ∨
      (p = start ∧ t.kind = .endOfInput ∧ closed = none ∧ q = start) ∨
      (t.closes = false ∧ p.advance? config t = some q ∧ closed = none) := by
  unfold step? at h
  split at h
  · next hc =>
    split at h
    · next slot hs => cases h; exact .inl ⟨slot, hc, hs, rfl, rfl⟩
    · split at h
      · next hp => cases h; exact .inr (.inl ⟨hp.1, by simpa [Token.isEnd] using hp.2, rfl, rfl⟩)
      · cases h
  · next hc =>
    obtain ⟨q', hq, heq⟩ := Option.map_eq_some_iff.1 h
    cases heq
    exact .inr (.inr ⟨by simpa using hc, hq, rfl⟩)

theorem advance?_of_step? {closed : Option Slot} (h : p.step? config t = some (closed, q))
    (hc : t.closes = false) : p.advance? config t = some q := by
  rcases step?_cases h with ⟨_, hclose, -⟩ | ⟨-, he, -⟩ | ⟨-, ha, -⟩
  · rw [hc] at hclose; cases hclose
  · simp [Token.closes, he] at hc
  · exact ha

/-- What has been read is nothing, a name, a value or an output keyword. -/
theorem eq_shape (p : Progress) : p = start ∨ (∃ name, p = expectValue name) ∨
    (∃ name value spaced, p = ofValue name value spaced) ∨
    ∃ name value, p = ofOutput name value := by
  cases p with
  | start => exact .inl rfl
  | positional value spaced => exact .inr (.inr (.inl ⟨none, value, spaced, rfl⟩))
  | positionalOutput value => exact .inr (.inr (.inr ⟨none, value, rfl⟩))
  | expectValue name => exact .inr (.inl ⟨name, rfl⟩)
  | named name value spaced => exact .inr (.inr (.inl ⟨some name, value, spaced, rfl⟩))
  | namedOutput name value => exact .inr (.inr (.inr ⟨some name, value, rfl⟩))

theorem ofValue_ne_start (name : Option Text) (value : Text) (spaced : Bool) :
    ofValue name value spaced ≠ start := by
  cases name <;> simp [ofValue]

theorem ofOutput_ne_start (name : Option Text) (value : Text) : ofOutput name value ≠ start := by
  cases name <;> simp [ofOutput]

/-- After a value nothing is closed yet, and no other value may follow at once. -/
theorem advance?_of_isValue (ht : t.isValue = true) (h : p.advance? config t = some q) :
    (∃ name, q = ofValue name t.value false) ∨ ∃ name value, q = ofOutput name value := by
  have hblank : t.kind ≠ .blank := by intro hb; simp [Token.isValue, hb] at ht
  have hequals : t.kind ≠ .equals := by intro he; simp [Token.isValue, he] at ht
  rcases eq_shape p with rfl | ⟨name, rfl⟩ | ⟨name, value, spaced, rfl⟩ | ⟨name, value, rfl⟩
  · rcases advance?_start h with ⟨hb, -⟩ | ⟨-, rfl⟩
    · exact absurd hb hblank
    · exact .inl ⟨none, rfl⟩
  · rcases advance?_expectValue h with ⟨hb, -⟩ | ⟨-, rfl⟩
    · exact absurd hb hblank
    · exact .inl ⟨some name, rfl⟩
  · rcases advance?_ofValue h with ⟨hb, -⟩ | ⟨-, he, -⟩ | ⟨-, -, rfl⟩
    · exact absurd hb hblank
    · exact absurd he hequals
    · exact .inr ⟨name, value, rfl⟩
  · exact absurd (advance?_ofOutput h).1 hblank

/-- A step inside a slot does not leave it. -/
theorem advance?_ne_start (hp : p ≠ start) (h : p.advance? config t = some q) : q ≠ start := by
  rcases eq_shape p with rfl | ⟨name, rfl⟩ | ⟨name, value, spaced, rfl⟩ | ⟨name, value, rfl⟩
  · exact absurd rfl hp
  · rcases advance?_expectValue h with ⟨-, rfl⟩ | ⟨-, rfl⟩
    · simp
    · exact ofValue_ne_start _ _ _
  · rcases advance?_ofValue h with ⟨-, rfl⟩ | ⟨-, -, rfl⟩ | ⟨-, -, rfl⟩
    · exact ofValue_ne_start _ _ _
    · simp
    · exact ofOutput_ne_start _ _
  · rw [(advance?_ofOutput h).2]
    exact ofOutput_ne_start _ _

end Progress

namespace Slot

theorem readFrom_cons_eq_ok_iff {last : Token} : readFrom config p last (t :: ts) = .ok slots ↔
    ∃ closed q others, p.step? config t = some (closed, q) ∧ readFrom config q t ts = .ok others ∧
      slots = closed.toList ++ others := by
  rw [readFrom]
  cases p.step? config t with
  | none => simp
  | some r =>
    obtain ⟨closed, q⟩ := r
    simp only [map_eq_ok, Option.some.injEq, Prod.mk.injEq]
    constructor
    · rintro ⟨others, hrest, rfl⟩
      exact ⟨closed, q, others, ⟨rfl, rfl⟩, hrest, rfl⟩
    · rintro ⟨_, _, others, ⟨rfl, rfl⟩, hrest, rfl⟩
      exact ⟨others, hrest, rfl⟩

end Slot

/-! ## Openings -/

/-- The tokens of a phrase before its value: none, or a name and an equals sign. -/
inductive Lead : List Token → (name : Option Text) → Prop
  | unnamed : Lead [] none
  | named (name : Token) (blanks : List Token) (equals : Token) (others : List Token) :
      name.isValue → Token.AllBlank blanks → equals.kind = .equals → Token.AllBlank others →
      Lead (name :: (blanks ++ equals :: others)) (some name.value)

variable (config) in
/-- The tokens of a phrase that is not closed yet, and what has been read after them. -/
inductive Opening : List Token → Progress → Prop
  | start : Opening [] .start
  | lead (ts : List Token) (name : Text) : Lead ts (some name) → Opening ts (.expectValue name)
  | value (ts : List Token) (name : Option Text) (value : Token) (blanks : List Token) :
      Lead ts name → value.isValue → Token.AllBlank blanks →
      Opening (ts ++ value :: blanks) (.ofValue name value.value (!blanks.isEmpty))
  | output (ts : List Token) (name : Option Text) (value : Token) (blanks : List Token)
      (keyword : Token) (others : List Token) :
      Lead ts name → value.isValue → Token.AllBlank blanks → blanks ≠ [] →
      keyword.IsOutputKeyword config → Token.AllBlank others →
      Opening (ts ++ value :: (blanks ++ keyword :: others)) (.ofOutput name value.value)

theorem Token.AllBlank.concat {blanks : List Token} (hb : AllBlank blanks) (ht : t.kind = .blank) :
    AllBlank (blanks ++ [t]) := by
  intro x hx
  rcases List.mem_append.1 hx with hx | hx
  · exact hb x hx
  · rw [List.mem_singleton.1 hx]; exact ht

theorem Token.allBlank_nil : AllBlank [] := by
  intro x hx; cases hx

/-- A lead, a value and the end of a slot are a phrase. -/
theorem Lead.phrase {name : Option Text} {value : Token} {isOutput : Bool} (h : Lead ts name)
    (hv : value.isValue = true) (he : SlotEnd config rest isOutput) :
    SlotPhrase config (ts ++ value :: rest) (.ofValue name value.value isOutput) := by
  cases h with
  | unnamed => exact .positional value rest isOutput hv he
  | named name blanks equals others hn hb heq ho =>
    rw [List.cons_append, List.append_assoc, List.cons_append]
    exact .named name blanks equals others value rest isOutput hn hb heq ho hv he

namespace Opening

/-- **One step of the reader inside a phrase.** Blanks before a phrase are no part of it. -/
theorem advance (h : Opening config ts p) (hq : p.advance? config t = some q) :
    (p = .start ∧ q = .start ∧ t.kind = .blank) ∨ Opening config (ts ++ [t]) q := by
  cases h with
  | start =>
    rcases Progress.advance?_start hq with ⟨hb, rfl⟩ | ⟨hv, rfl⟩
    · exact .inl ⟨rfl, rfl, hb⟩
    · exact .inr (.value [] none t [] .unnamed hv Token.allBlank_nil)
  | lead ts name hl =>
    rcases Progress.advance?_expectValue hq with ⟨hb, rfl⟩ | ⟨hv, rfl⟩
    · -- one more blank after the equals sign
      cases hl with
      | named name blanks equals others hn hbs heq ho =>
        have hlead := Lead.named name blanks equals _ hn hbs heq (ho.concat hb)
        rw [List.cons_append, List.append_assoc, List.cons_append]
        exact .inr (.lead _ _ hlead)
    · exact .inr (.value ts (some name) t [] hl hv Token.allBlank_nil)
  | value ts name value blanks hl hv hbs =>
    rcases Progress.advance?_ofValue hq with ⟨hb, rfl⟩ | ⟨rfl, he, rfl⟩ | ⟨hne, hk, rfl⟩
    · have hopen : Opening config (ts ++ value :: (blanks ++ [t]))
          (.ofValue name value.value (!(blanks ++ [t]).isEmpty)) :=
        .value ts name value _ hl hv (hbs.concat hb)
      have hspaced : (!(blanks ++ [t]).isEmpty) = true := by simp
      rw [hspaced] at hopen
      rw [List.append_assoc, List.cons_append]
      exact .inr hopen
    · -- the value turns out to be a name
      cases hl
      exact .inr (.lead _ _ (.named value blanks t [] hv hbs he Token.allBlank_nil))
    · have hblanks : blanks ≠ [] := by simpa using hne
      have hopen := Opening.output ts name value blanks t [] hl hv hbs hblanks hk Token.allBlank_nil
      rw [List.append_assoc, List.cons_append]
      exact .inr hopen
  | output ts name value blanks keyword others hl hv hbs hne hk ho =>
    obtain ⟨hb, rfl⟩ := Progress.advance?_ofOutput hq
    have hopen := Opening.output ts name value blanks keyword _ hl hv hbs hne hk (ho.concat hb)
    rw [List.append_assoc, List.cons_append, List.append_assoc, List.cons_append]
    exact .inr hopen

/-- **An opening is closed as a phrase.** -/
theorem close (h : Opening config ts p) (hc : t.closes = true) (hs : p.slot? = some slot) :
    SlotPhrase config (ts ++ [t]) slot := by
  cases h with
  | start => cases hs
  | lead => cases hs
  | value ts name value blanks hl hv hbs =>
    have hslot : slot = .ofValue name value.value false := by
      rw [Slot.slot?_ofValue] at hs
      exact (Option.some.inj hs).symm
    rw [hslot, List.append_assoc, List.cons_append]
    exact hl.phrase hv (.plain blanks t hbs hc)
  | output ts name value blanks keyword others hl hv hbs hne hk ho =>
    have hslot : slot = .ofValue name value.value true := by
      rw [Slot.slot?_ofOutput] at hs
      exact (Option.some.inj hs).symm
    rw [hslot, List.append_assoc, List.cons_append, List.append_assoc, List.cons_append]
    exact hl.phrase hv (.output blanks keyword others t hbs hne hk ho hc)

theorem eq_nil (h : Opening config ts .start) : ts = [] := by
  generalize hp : Progress.start = p at h
  cases h with
  | start => rfl
  | lead => cases hp
  | value ts name value => exact absurd hp.symm (Progress.ofValue_ne_start _ _ _)
  | output ts name value => exact absurd hp.symm (Progress.ofOutput_ne_start _ _)

/-- **What a run reads is phrases**, the first of them opened before the run. -/
theorem phrases_of_readFrom {last : Token} (h : Opening config ts p)
    (hr : Slot.readFrom config p last rest = .ok slots) :
    SlotPhrases config (ts ++ rest) slots := by
  induction rest generalizing ts p last slots with
  | nil =>
    unfold Slot.readFrom at hr
    split at hr
    · next hp =>
      subst hp
      cases hr
      rw [h.eq_nil]
      exact .none
    · cases hr
  | cons t rest ih =>
    obtain ⟨closed, q, others, hstep, hrest, rfl⟩ := Slot.readFrom_cons_eq_ok_iff.1 hr
    rcases Progress.step?_cases hstep with
      ⟨slot, hc, hs, rfl, rfl⟩ | ⟨rfl, he, rfl, rfl⟩ | ⟨-, ha, rfl⟩
    · have hphrase := h.close hc hs
      rw [List.append_cons]
      exact .slot _ _ slot others hphrase (ih .start hrest)
    · rw [h.eq_nil]
      exact .skip t rest others (.inr he) (ih .start hrest)
    · rcases h.advance ha with ⟨rfl, rfl, hb⟩ | hopen
      · rw [h.eq_nil]
        exact .skip t rest others (.inl hb) (ih .start hrest)
      · rw [List.append_cons]
        exact ih hopen hrest

end Opening

namespace Slot

/-- Reading tokens fails at one that cannot come next, or where the tokens end. -/
theorem readFrom_error {last : Token} {e : Error} (h : readFrom config p last ts = .error e) :
    ∃ token state, e = .unexpectedToken token state none ∨ e = .unexpectedEnd token state none := by
  induction ts generalizing p last with
  | nil =>
    unfold readFrom at h
    split at h
    · cases h
    · cases h; exact ⟨last, p.state, .inr rfl⟩
  | cons token rest ih =>
    unfold readFrom at h
    split at h
    · cases h; exact ⟨token, p.state, .inl rfl⟩
    · exact ih (map_eq_error.1 h)

/-- What is read is what the grammar says. -/
theorem ofTokens_eq_ok_iff : ofTokens config ts = .ok slots ↔ SlotPhrases config ts slots :=
  ⟨fun h => Opening.start.phrases_of_readFrom h, SlotPhrases.ofTokens_eq_ok⟩

/-! ## Tokens that no slots have -/

/-- Some tokens are **refused** when they cannot be read on, whatever was read before. -/
def Refused (config : Config) (ts : List Token) : Prop :=
  ∀ p last slots, readFrom config p last ts ≠ .ok slots

theorem Refused.cons (h : Refused config ts) (t : Token) : Refused config (t :: ts) := by
  intro p last slots hr
  obtain ⟨closed, q, others, -, hrest, -⟩ := readFrom_cons_eq_ok_iff.1 hr
  exact h q t others hrest

theorem Refused.append (h : Refused config ts) (before : List Token) :
    Refused config (before ++ ts) := by
  induction before with
  | nil => exact h
  | cons t before ih => exact ih.cons t

theorem Refused.not_accepted (h : Refused config ts) : ¬ Accepted config ts := by
  rintro ⟨slots, hs⟩
  exact h _ _ _ hs

/-- Values need a blank or a sign between them, also when the second is a keyword. -/
theorem refused_glued {value next : Token} (hv : value.isValue = true) (hn : next.isValue = true)
    (after : List Token) : Refused config (value :: next :: after) := by
  intro p last slots hr
  obtain ⟨_, q, _, hstep, hrest, -⟩ := readFrom_cons_eq_ok_iff.1 hr
  obtain ⟨_, q', _, hstep', -, -⟩ := readFrom_cons_eq_ok_iff.1 hrest
  have hadvance := Progress.advance?_of_step? hstep (Progress.closes_of_isValue hv)
  have hadvance' := Progress.advance?_of_step? hstep' (Progress.closes_of_isValue hn)
  rcases Progress.advance?_of_isValue hv hadvance with ⟨name, rfl⟩ | ⟨name, w, rfl⟩
  · -- no blank has been read after the first value
    rcases Progress.advance?_ofValue hadvance' with ⟨hb, -⟩ | ⟨-, he, -⟩ | ⟨hspaced, -⟩
    · simp [Token.isValue, hb] at hn
    · simp [Token.isValue, he] at hn
    · cases hspaced
  · have hb := (Progress.advance?_ofOutput hadvance').1
    simp [Token.isValue, hb] at hn

/-- A slot in hand needs a token that closes it. -/
theorem readFrom_ne_ok_of_open {last : Token} (hp : p ≠ .start)
    (h : ∀ t ∈ ts, t.closes = false) : readFrom config p last ts ≠ .ok slots := by
  induction ts generalizing p last slots with
  | nil =>
    intro hr
    rw [readFrom, if_neg hp] at hr
    cases hr
  | cons t rest ih =>
    intro hr
    obtain ⟨_, q, others, hstep, hrest, -⟩ := readFrom_cons_eq_ok_iff.1 hr
    have hadvance := Progress.advance?_of_step? hstep (h t List.mem_cons_self)
    exact ih (Progress.advance?_ne_start hp hadvance) (fun x hx => h x (List.mem_cons_of_mem _ hx))
      hrest

theorem refused_unclosed {value : Token} (hv : value.isValue = true)
    (h : ∀ t ∈ ts, t.closes = false) : Refused config (value :: ts) := by
  intro p last slots hr
  obtain ⟨_, q, others, hstep, hrest, -⟩ := readFrom_cons_eq_ok_iff.1 hr
  have hadvance := Progress.advance?_of_step? hstep (Progress.closes_of_isValue hv)
  have hq : q ≠ .start := by
    rcases Progress.advance?_of_isValue hv hadvance with ⟨name, rfl⟩ | ⟨name, w, rfl⟩
    · exact Progress.ofValue_ne_start _ _ _
    · exact Progress.ofOutput_ne_start _ _
  exact readFrom_ne_ok_of_open hq h hrest

/-- Between two commas there has to be a slot. -/
theorem refused_commas {comma other : Token} {blanks : List Token} (hc : comma.kind = .comma)
    (ho : other.kind = .comma) (hb : Token.AllBlank blanks) (after : List Token) :
    Refused config (comma :: (blanks ++ other :: after)) := by
  have hstart : ∀ last slots,
      readFrom config .start last (blanks ++ other :: after) ≠ .ok slots := by
    induction blanks with
    | nil =>
      intro last slots hr
      obtain ⟨_, _, _, hstep, -, -⟩ := readFrom_cons_eq_ok_iff.1 hr
      simp [Progress.step?, Progress.slot?, Token.closes, Token.isEnd, ho] at hstep
    | cons t rest ih =>
      intro last slots hr
      have hstep : Progress.start.step? config t = some (none, .start) :=
        Progress.step?_blank (hb t List.mem_cons_self)
      rw [List.cons_append, readFrom_skip hstep] at hr
      exact ih (fun x hx => hb x (List.mem_cons_of_mem _ hx)) t slots hr
  intro p last slots hr
  obtain ⟨_, q, others, hstep, hrest, -⟩ := readFrom_cons_eq_ok_iff.1 hr
  rcases Progress.step?_cases hstep with ⟨_, -, -, -, rfl⟩ | ⟨-, -, -, rfl⟩ | ⟨hopen, -⟩
  · exact hstart comma others hrest
  · exact hstart comma others hrest
  · simp [Token.closes, hc] at hopen

/-- A comma may close the last slot in place of the end of the input. -/
theorem readFrom_trailing_comma {last comma atEnd : Token} {trail : List Token}
    (hc : comma.kind = .comma) (htrail : ofTokens config trail = .ok [])
    (hopen : ∀ slots, readFrom config p last ts ≠ .ok slots)
    (h : readFrom config p last (ts ++ [atEnd]) = .ok slots) :
    readFrom config p last (ts ++ comma :: trail) = .ok slots := by
  induction ts generalizing p last slots with
  | nil =>
    obtain ⟨closed, q, others, hstep, hrest, rfl⟩ := readFrom_cons_eq_ok_iff.1 h
    have hstart : p ≠ .start := by
      rintro rfl
      exact hopen [] rfl
    rcases Progress.step?_cases hstep with ⟨slot, -, hs, rfl, rfl⟩ | ⟨hp, -⟩ | ⟨-, hadvance, rfl⟩
    · cases hrest
      have hclose : comma.closes = true := by simp [Token.closes, hc]
      rw [List.nil_append, readFrom_cons (Progress.step?_close hclose hs), readFrom_start, htrail]
      rfl
    · exact absurd hp hstart
    · -- the tokens end inside the slot
      have hq := Progress.advance?_ne_start hstart hadvance
      exact absurd hrest (readFrom_ne_ok_of_open hq (by simp))
  | cons t rest ih =>
    obtain ⟨closed, q, others, hstep, hrest, rfl⟩ := readFrom_cons_eq_ok_iff.1 h
    refine readFrom_cons_eq_ok_iff.2 ⟨closed, q, others, hstep, ih ?_ hrest, rfl⟩
    intro slots hr
    exact hopen _ (readFrom_cons_eq_ok_iff.2 ⟨closed, q, slots, hstep, hr, rfl⟩)

/-- **Exactly the phrases of the grammar are accepted**, as the slots that they denote, and
all other token lists are errors of the argument list. So a value stands glued to no keyword
or other value, every value is in a slot that is closed, and the last slot may be closed by
one comma but not by two. -/
theorem exactly_phrases_accepted (config : Config) (ts : List Token) :
    (∀ slots, ofTokens config ts = .ok slots ↔ SlotPhrases config ts slots) ∧
      ((∀ slots, ¬ SlotPhrases config ts slots) → ∃ e r, ofTokens config ts = .error e ∧
        e.report? = some r ∧ r.topic.name = "ParserError") ∧
      (∀ before value next after, ts = before ++ value :: next :: after →
        value.isValue = true → next.isValue = true → ¬ Accepted config ts) ∧
      (∀ before value after, ts = before ++ value :: after → value.isValue = true →
        Accepted config ts → ∃ t ∈ after, t.closes = true) ∧
      (∀ slots comma trail atEnd, ¬ Accepted config ts →
        ofTokens config (ts ++ [atEnd]) = .ok slots →
        comma.kind = .comma → ofTokens config trail = .ok [] →
        ofTokens config (ts ++ comma :: trail) = .ok slots) ∧
      (∀ before comma blanks other after, ts = before ++ comma :: (blanks ++ other :: after) →
        comma.kind = .comma → Token.AllBlank blanks → other.kind = .comma →
        ¬ Accepted config ts) := by
  refine ⟨fun slots => ofTokens_eq_ok_iff, ?_, ?_, ?_, ?_, ?_⟩
  · intro hnone
    cases h : ofTokens config ts with
    | ok slots => exact absurd (ofTokens_eq_ok_iff.1 h) (hnone slots)
    | error e =>
      obtain ⟨token, state, rfl | rfl⟩ := readFrom_error h
      · exact ⟨_, _, rfl, rfl, rfl⟩
      · exact ⟨_, _, rfl, rfl, rfl⟩
  · rintro before value next after rfl hv hn
    exact ((refused_glued hv hn after).append before).not_accepted
  · rintro before value after rfl hv haccepted
    refine Classical.byContradiction fun hclosed => ?_
    have hopen : ∀ t ∈ after, t.closes = false := by simpa using hclosed
    exact ((refused_unclosed hv hopen).append before).not_accepted haccepted
  · intro slots comma trail atEnd hopen h hc htrail
    exact readFrom_trailing_comma hc htrail (fun slots hs => hopen ⟨slots, hs⟩) h
  · rintro before comma blanks other after rfl hc hb ho
    exact ((refused_commas hc ho hb after).append before).not_accepted

end Slot

end ProcCall
