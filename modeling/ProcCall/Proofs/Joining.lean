import ProcCall.Proofs.Confinement
import ProcCall.Proofs.Prefixes

/-!
# Argument texts joined by a comma

A comma between two texts is a lexeme of its own, so the tokens of the joined text are those of
the first without their end, the comma, and those of the second in later places. The comma does
to the first part what the end of the input did, as long as a slot is in hand there. Whether one
is shows in the text: its last character other than blanks is no comma.

* `Lexeme.spells_around_separator`, `Lexeme.ofText_around_separator`: the lexemes and the tokens
  of the joined text.
* `Token.closes_last_iff`: where the text shows whether a slot is in hand.
* `Slot.ofTokens_comma`, `Slot.ofTokens_comma_of_closed`: a comma in place of the end.
* `Slot.arguments_joined`: both outcomes for texts.
-/

namespace ProcCall

variable {config : Config} {a b : Text} {slots others : List Slot}

/-- The last character of a text that is no blank. -/
def Text.lastNonBlank? (t : Text) : Option Char := (t.filter (!isBlank ·)).getLast?

namespace Text

theorem lastNonBlank?_append (a b : Text) :
    (a ++ b).lastNonBlank? = b.lastNonBlank?.or a.lastNonBlank? := by
  unfold lastNonBlank?
  rw [List.filter_append, List.getLast?_append]

theorem lastNonBlank?_of_blanks {t : Text} (h : ∀ c ∈ t, isBlank c = true) :
    t.lastNonBlank? = none := by
  have hnone : t.filter (!isBlank ·) = [] := by simpa using h
  rw [lastNonBlank?, hnone, List.getLast?_nil]

end Text

/-! ## The lexemes of a joined text -/

namespace Lexeme

variable {c : Char} {l : Lexeme} {ls ls' : List Lexeme}

/-- **The lexemes of two texts with a separator between them**, also when a literal ends right
before it. -/
theorem spells_around_separator (hc : kindOf c = .comma ∨ kindOf c = .equals) (ha : Spells a ls)
    (hb : Spells b ls') : Spells (a ++ c :: b) (ls ++ ⟨kindOf c, [c]⟩ :: ls') := by
  have hquote : kindOf c ≠ .quoted := by
    rcases hc with h | h
    · simp [h]
    · simp [h]
  have hright : Spells (c :: b) (⟨kindOf c, [c]⟩ :: ls') :=
    hb.cons (wellFormed_singleton hquote) fun _ _ _ => hc
  refine ha.append hright fun x _ y hy heq => ?_
  cases hy
  rw [heq]
  exact hc

/-- **The tokens of two texts with a separator between them**: those of the first without their
end, the separator, and those of the second in later places. -/
theorem ofText_around_separator (hc : kindOf c = .comma ∨ kindOf c = .equals) (ha : Spells a ls)
    (hb : Spells b ls') : Token.ofText (a ++ c :: b) =
      .ok (placed 0 ls ++ ⟨kindOf c, [c], a.length⟩ :: place (a.length + 1) ls') := by
  have hspells := spells_around_separator hc ha hb
  have hplace := place_append 0 ls (⟨kindOf c, [c]⟩ :: ls')
  rw [ha.text, Int.zero_add] at hplace
  exact Token.ofText_eq_ok_iff.2 ⟨_, hspells, hplace.symm⟩

/-- A lexeme other than blanks ends with a comma when it is one. -/
theorem WellFormed.lastNonBlank (h : WellFormed l) (hk : l.kind ≠ .blank) :
    ∃ c, l.value.lastNonBlank? = some c ∧ (c = ',' ↔ l.kind = .comma) := by
  obtain ⟨kind, value⟩ := l
  cases kind with
  | text =>
    obtain ⟨hne, hword⟩ := h
    have hall : value.filter (!Text.isBlank ·) = value := by
      refine List.filter_eq_self.2 fun c hc => ?_
      rw [(hword c hc).2.2.2]
      rfl
    have hlast : value.lastNonBlank? = some (value.getLast hne) := by
      rw [Text.lastNonBlank?, hall, List.getLast?_eq_some_getLast hne]
    have hcomma : value.getLast hne ≠ ',' := (hword _ (List.getLast_mem hne)).2.1
    exact ⟨_, hlast, by simpa using hcomma⟩
  | quoted =>
    obtain ⟨body, rfl, -⟩ := h
    exact ⟨'\'', by rw [Text.lastNonBlank?_append]; rfl, by simp⟩
  | blank => exact absurd rfl hk
  | comma =>
    obtain rfl : value = [','] := h
    exact ⟨',', rfl, by decide⟩
  | equals =>
    obtain rfl : value = ['='] := h
    exact ⟨'=', rfl, by decide⟩
  | endOfInput => exact absurd h id

end Lexeme

/-- **Where a text shows whether a slot is in hand**: its last token other than blanks closes a
slot when its last character other than blanks is a comma. -/
theorem Token.closes_last_iff {body : List Token} (h : ∀ t ∈ body, t.lexeme.WellFormed) :
    (∀ t ∈ (body.filter (·.kind ≠ .blank)).getLast?, t.closes = true) ↔
      ∀ c ∈ (spelled body).lastNonBlank?, c = ',' := by
  induction body using List.reverseRecOn with
  | nil => simp [spelled, Text.lastNonBlank?]
  | append_singleton body t ih =>
    have hspelled : spelled (body ++ [t]) = spelled body ++ t.value := by simp [spelled]
    have ht := h t (by simp)
    rw [hspelled, Text.lastNonBlank?_append]
    by_cases hk : t.kind = .blank
    · -- blanks at the end change nothing
      have hblank : ∀ c ∈ t.value, Text.isBlank c = true := by
        unfold Token.lexeme Lexeme.WellFormed at ht
        rw [hk] at ht
        exact ht.2
      rw [Text.lastNonBlank?_of_blanks hblank, Option.none_or,
        ← ih fun x hx => h x (List.mem_append_left _ hx)]
      simp [hk]
    · obtain ⟨c, hc, hcomma⟩ := ht.lastNonBlank hk
      have hend : t.kind ≠ .endOfInput := by
        intro he
        unfold Token.lexeme Lexeme.WellFormed at ht
        rw [he] at ht
        exact ht
      have hvalue : t.value.lastNonBlank? = some c := hc
      have hclose : t.closes = true ↔ c = ',' := by
        rw [hcomma]
        simp [Token.closes, Token.lexeme, hend]
      rw [hvalue, Option.some_or]
      simpa [hk] using hclose

/-! ## A comma in place of the end -/

namespace Slot

open Progress

variable {xs : List Token} {atEnd comma : Token} {ls : List Lexeme}

/-- What tokens leave in hand when the end of the input may follow: nothing, or a slot that may
end. -/
theorem run?_of_ofTokens (he : atEnd.kind = .endOfInput)
    (h : ofTokens config (xs ++ [atEnd]) = .ok slots) :
    ∃ closed q, Progress.start.run? config xs = some (closed, q) ∧
      (q = .start ∧ slots = closed ∨ ∃ slot, q.slot? = some slot ∧ slots = closed ++ [slot]) := by
  obtain ⟨closed, q, rest, hrun, hrest, rfl⟩ := readFrom_append_eq_ok_iff.1 h
  obtain ⟨last, s, others, hstep, hnil, rfl⟩ := readFrom_cons_eq_ok_iff.1 hrest
  rcases step?_cases hstep with ⟨slot, -, hslot, rfl, rfl⟩ | ⟨rfl, -, rfl, rfl⟩ | ⟨hopen, -⟩
  · -- the end closes a slot, and no tokens follow it
    cases hnil
    exact ⟨closed, q, hrun, .inr ⟨slot, hslot, rfl⟩⟩
  · cases hnil
    exact ⟨closed, .start, hrun, .inl ⟨rfl, by simp⟩⟩
  · simp [Token.closes, he] at hopen

/-- **A comma closes the slot in hand** as the end of the input does, and what follows it is read
anew. -/
theorem ofTokens_comma (he : atEnd.kind = .endOfInput) (hc : comma.kind = .comma)
    (h : ofTokens config (xs ++ [atEnd]) = .ok slots)
    (hopen : ¬ ∀ t ∈ (xs.filter (·.kind ≠ .blank)).getLast?, t.closes = true) (ys : List Token) :
    ofTokens config (xs ++ comma :: ys) = (ofTokens config ys).map (slots ++ ·) := by
  obtain ⟨closed, q, hrun, ⟨rfl, -⟩ | ⟨slot, hslot, rfl⟩⟩ := run?_of_ofTokens he h
  · exact absurd ((eq_start_iff_of_run? hrun).1 rfl) hopen
  · have hclose : comma.closes = true := by simp [Token.closes, hc]
    rw [ofTokens, readFrom_append hrun, readFrom_cons (step?_close hclose hslot), readFrom_start]
    cases ofTokens config ys with
    | error e => rfl
    | ok more => simp [Except.map]

/-- **A comma with no slot in hand** is an unexpected token. -/
theorem ofTokens_comma_of_closed (he : atEnd.kind = .endOfInput) (hc : comma.kind = .comma)
    (h : ofTokens config (xs ++ [atEnd]) = .ok slots)
    (hclosed : ∀ t ∈ (xs.filter (·.kind ≠ .blank)).getLast?, t.closes = true) (ys : List Token) :
    ofTokens config (xs ++ comma :: ys) = .error (.unexpectedToken comma .start none) := by
  obtain ⟨closed, q, hrun, -⟩ := run?_of_ofTokens he h
  obtain rfl := (eq_start_iff_of_run? hrun).2 hclosed
  have hstop : Progress.start.step? config comma = none := by
    simp [step?, slot?, Token.closes, Token.isEnd, hc]
  exact readFrom_of_stopped hrun hstop ys

/-- Slots do not depend on the place where their tokens begin. -/
theorem ofTokens_place {position position' : Int}
    (h : ofTokens config (Lexeme.place position ls) = .ok slots) :
    ofTokens config (Lexeme.place position' ls) = .ok slots := by
  have halike : Alike Eq _ _ (ofTokens config (Lexeme.place position ls))
      (ofTokens config (Lexeme.place position' ls)) := alike_closed ls .start _ _ _ _
  rw [h] at halike
  generalize ofTokens config (Lexeme.place position' ls) = outcome at halike ⊢
  cases halike with
  | slots heq => rw [heq]

/-! ## Joined texts -/

/-- **Argument lists compose at commas.** When two argument texts are read as slots, the text
with a comma between them is read as all their slots, if the first has a character other than
blanks and the last such is no comma. If it is blank or ends with a comma and blanks, the added
comma is an unexpected token where a slot should start. -/
theorem arguments_joined (ha : ofText config a = .ok slots) (hb : ofText config b = .ok others) :
    ((∃ c ∈ a.lastNonBlank?, c ≠ ',') → ofText config (a ++ ',' :: b) = .ok (slots ++ others)) ∧
      ((∀ c ∈ a.lastNonBlank?, c = ',') → ofText config (a ++ ',' :: b) =
        .error (.unexpectedToken ⟨.comma, [','], a.length⟩ .start (some (a ++ ',' :: b)))) := by
  obtain ⟨_, htokens, hslots⟩ := Slot.ofText_eq_ok_iff.1 ha
  obtain ⟨_, htokens', hothers⟩ := Slot.ofText_eq_ok_iff.1 hb
  obtain ⟨ls, hls, rfl⟩ := Token.ofText_eq_ok_iff.1 htokens
  obtain ⟨ls', hls', rfl⟩ := Token.ofText_eq_ok_iff.1 htokens'
  let comma : Token := ⟨.comma, [','], a.length⟩
  let rest : List Token := Lexeme.place (a.length + 1) ls'
  have hjoined : Token.ofText (a ++ ',' :: b) = .ok (Lexeme.placed 0 ls ++ comma :: rest) :=
    Lexeme.ofText_around_separator (.inl rfl) hls hls'
  rw [Lexeme.place_eq_placed, hls.text, Int.zero_add] at hslots
  have hform : ∀ t ∈ Lexeme.placed 0 ls, t.lexeme.WellFormed :=
    fun t ht => Lexeme.wellFormed_placed hls.form ht
  have hlast := Token.closes_last_iff hform
  rw [Lexeme.spelled_placed, hls.text] at hlast
  constructor
  · rintro ⟨c, hc, hne⟩
    have hopen := mt hlast.1 fun hall => hne (hall c hc)
    refine Slot.ofText_eq_ok_iff.2 ⟨_, hjoined, ?_⟩
    rw [ofTokens_comma rfl rfl hslots hopen rest, ofTokens_place hothers]
    rfl
  · intro hcomma
    have hkind : comma.kind = .comma := rfl
    have hstop := ofTokens_comma_of_closed rfl hkind hslots (hlast.2 hcomma) rest
    exact Slot.ofText_eq_error_iff.2 (.inr ⟨_, hjoined, _, hstop, rfl⟩)

/-- A named slot that ends with blanks, and a list with a comma at its end. -/
theorem arguments_joined_of_trailing :
    let a : Text := "@x = 'a,' out ".toList
    let b : Text := "5, ".toList
    ofText .standard a = .ok [.named "@x".toList "'a,'".toList true] ∧
      ofText .standard b = .ok [.positional "5".toList false] ∧
      (∃ c ∈ a.lastNonBlank?, c ≠ ',') ∧ (∀ c ∈ b.lastNonBlank?, c = ',') ∧
      ofText .standard (a ++ ',' :: b) =
        .ok [.named "@x".toList "'a,'".toList true, .positional "5".toList false] ∧
      ofText .standard (b ++ ',' :: a) =
        .error (.unexpectedToken ⟨.comma, [','], 3⟩ .start (some (b ++ ',' :: a))) := by
  intro a b
  have ha : ofText .standard a = .ok [.named "@x".toList "'a,'".toList true] := rfl
  have hb : ofText .standard b = .ok [.positional "5".toList false] := rfl
  have hopen : ∃ c ∈ a.lastNonBlank?, c ≠ ',' := ⟨'t', rfl, by decide⟩
  have hclosed : ∀ c ∈ b.lastNonBlank?, c = ',' := by
    rintro c ⟨⟩
    rfl
  have hjoined := (arguments_joined ha hb).1 hopen
  have hrefused := (arguments_joined hb ha).2 hclosed
  exact ⟨ha, hb, hopen, hclosed, hjoined, hrefused⟩

end Slot

end ProcCall
