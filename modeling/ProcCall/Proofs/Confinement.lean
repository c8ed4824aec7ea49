import ProcCall.Proofs.Balance

/-!
# The content of a literal is confined

What stands between the quote marks of a literal changes nothing but one component of one
slot. Two argument texts that differ in the content of one literal only have the same tokens,
that one and their places aside. Reading them as slots goes **in step**: both runs are in the
same state, as long as the literal is read into what is in hand (`Open`), and no step looks at
a quoted value.

* `Lexeme.spells_around`: the lexemes of a text around a literal.
* `Progress.Open.step?_cases`: one step while the literal is in hand.
* `Slot.Alike.step`, `Slot.Alike.stepOpen`: one step of both runs.
* `Slot.alike_closed`, `Slot.alike_open`, `Slot.alike_around`: whole runs.
* `Slot.literal_content_confined`: both outcomes.
-/

namespace ProcCall

open Outcome

variable {config : Config} {a b text : Text} {ls : List Lexeme}

/-! ## The lexemes around a literal -/

namespace Lexeme

/-- **The lexemes of a text around a literal** are those of its parts, when no quote mark
stands next to the literal. -/
theorem spells_around {ls' : List Lexeme} (ha : Spells a ls) (hb : Spells b ls')
    (hend : a.getLast? ≠ some '\'') (hstart : b.head? ≠ some '\'') (s : Text) :
    Spells (a ++ Literal.quote s ++ b) (ls ++ ⟨.quoted, Literal.quote s⟩ :: ls') := by
  have hform : WellFormed ⟨.quoted, Literal.quote s⟩ :=
    wellFormed_quoted_iff.2 ⟨s, rfl⟩
  have hliteral : Spells (Literal.quote s ++ b) (⟨.quoted, Literal.quote s⟩ :: ls') := by
    refine hb.cons hform fun m hm heq => ?_
    exact absurd heq.symm (hb.head_ne_quoted hstart m hm)
  rw [List.append_assoc]
  refine ha.append hliteral fun x hx y hy heq => ?_
  cases hy
  exact absurd heq (ha.last_ne_quoted hend x hx)

/-- A literal adds an even number of quote marks. -/
theorem count_around (a s b : Text) : (a ++ Literal.quote s ++ b).count '\'' =
    a.count '\'' + 2 * (s.count '\'' + 1) + b.count '\'' := by
  simp only [Literal.quote, List.count_append, List.count_cons_self, List.count_nil,
    Literal.count_double]
  omega

end Lexeme

/-- Whether a token **stands at** a number in a list of tokens, and nowhere else. -/
def Token.StandsAt (ts : List Token) (token : Token) (i : Nat) : Prop :=
  ∀ j, ts[j]? = some token ↔ j = i

theorem Token.standsAt_of_nodup {ts : List Token} {token : Token} {i : Nat} (h : ts.Nodup)
    (hi : ts[i]? = some token) : StandsAt ts token i := by
  intro j
  constructor
  · intro hj
    obtain ⟨hlt, -⟩ := List.getElem?_eq_some_iff.1 hj
    exact (List.getElem?_inj hlt h).1 (hj.trans hi.symm)
  · rintro rfl
    exact hi

theorem Token.nodup_of_ofText {ts : List Token} (h : Token.ofText text = .ok ts) : ts.Nodup := by
  obtain ⟨ls, hls, rfl⟩ := Token.ofText_eq_ok_iff.1 h
  exact Lexeme.nodup_place hls.form 0

/-! ## The literal in hand -/

/-- A **hole** is one component of a slot that is left open: its value, with or without a
name before it, or its name. -/
inductive Slot.Hole where
  | atValue (name : Option Text)
  | atName (value : Text)

namespace Slot.Hole

/-- The name of a slot with a text in the hole. -/
def nameWith (x : Text) : Hole → Option Text
  | atValue name => name
  | atName _ => some x

/-- The value of a slot with a text in the hole. -/
def valueWith (x : Text) : Hole → Text
  | atValue _ => x
  | atName value => value

/-- The slot with a text in the hole. -/
def fill (h : Hole) (isOutput : Bool) (x : Text) : Slot :=
  .ofValue (h.nameWith x) (h.valueWith x) isOutput

end Slot.Hole

namespace Progress

variable {p q : Progress} {t u : Token} {name : Option Text} {value : Text} {spaced : Bool}

/-- **Places do not count**: a step looks at the kind and the characters of a token. -/
theorem step?_congr (h : t.lexeme = u.lexeme) : p.step? config t = p.step? config u := by
  obtain ⟨kind, value, position⟩ := t
  obtain ⟨kind', value', position'⟩ := u
  obtain ⟨rfl, rfl⟩ := Lexeme.mk.inj h
  cases p <;> rfl

theorem state_ofValue : (ofValue name value spaced).state =
    if name.isSome then .named else .positional := by
  cases name <;> rfl

theorem state_ofOutput : (ofOutput name value).state =
    if name.isSome then .namedOutput else .positionalOutput := by
  cases name <;> rfl

/-- What has been read when a literal is in hand: it stands in a slot, with an output keyword
after it or not, or it is a name with no value yet. -/
inductive Open where
  | inSlot (hole : Slot.Hole) (spaced : Bool)
  | inOutput (hole : Slot.Hole)
  | asName

namespace Open

/-- What has been read when the literal in hand is a given text. -/
def fill (x : Text) : Open → Progress
  | inSlot hole spaced => .ofValue (hole.nameWith x) (hole.valueWith x) spaced
  | inOutput hole => .ofOutput (hole.nameWith x) (hole.valueWith x)
  | asName => .expectValue x

/-- The state does not depend on the literal. -/
theorem state_fill (o : Open) (x y : Text) : (o.fill x).state = (o.fill y).state := by
  have hname : ∀ hole : Slot.Hole, (hole.nameWith x).isSome = (hole.nameWith y).isSome := by
    intro hole
    cases hole <;> rfl
  cases o with
  | inSlot hole spaced => simp only [fill, state_ofValue, hname]
  | inOutput hole => simp only [fill, state_ofOutput, hname]
  | asName => rfl

/-- A token that does not close the slot keeps the literal in hand or stops the reading,
whatever the literal is. -/
theorem advance?_cases (config : Config) (o : Open) (t : Token) :
    (∀ x, (o.fill x).advance? config t = none) ∨
      ∃ o' : Open, ∀ x, (o.fill x).advance? config t = some (o'.fill x) := by
  cases o with
  | inSlot hole spaced =>
    by_cases hblank : t.kind = .blank
    · refine .inr ⟨.inSlot hole true, fun x => ?_⟩
      simp only [fill, advance?_ofValue_eq, if_pos hblank]
    · by_cases hkeyword : t.kind = .text ∧ spaced ∧ config.isOutputKeyword t.value
      · refine .inr ⟨.inOutput hole, fun x => ?_⟩
        simp [fill, advance?_ofValue_eq, hkeyword]
      · -- only a literal without a name before it can become a name
        cases hole with
        | atName value =>
          refine .inl fun x => ?_
          simp [fill, Slot.Hole.nameWith, advance?_ofValue_eq, hblank, hkeyword]
        | atValue name =>
          by_cases hequals : t.kind = .equals ∧ name = none
          · refine .inr ⟨.asName, fun x => ?_⟩
            simp [fill, Slot.Hole.nameWith, Slot.Hole.valueWith, advance?_ofValue_eq, hequals]
          · refine .inl fun x => ?_
            simp [fill, Slot.Hole.nameWith, advance?_ofValue_eq, hblank, hkeyword, hequals]
  | inOutput hole =>
    by_cases hblank : t.kind = .blank
    · refine .inr ⟨.inOutput hole, fun x => ?_⟩
      simp only [fill, advance?_ofOutput_eq, if_pos hblank]
    · refine .inl fun x => ?_
      simp only [fill, advance?_ofOutput_eq, if_neg hblank]
  | asName =>
    by_cases hblank : t.kind = .blank
    · refine .inr ⟨.asName, fun x => ?_⟩
      simp [fill, advance?, hblank]
    · by_cases hvalue : t.isValue = true
      · refine .inr ⟨.inSlot (.atName t.value) false, fun x => ?_⟩
        simp [fill, advance?, hblank, hvalue, ofValue, Slot.Hole.nameWith, Slot.Hole.valueWith]
      · refine .inl fun x => ?_
        simp [fill, advance?, hblank, hvalue]

/-- **One step while a literal is in hand** stops the reading, keeps the literal in hand or
closes the slot that it stands in, whatever the literal is. -/
theorem step?_cases (config : Config) (o : Open) (t : Token) :
    (∀ x, (o.fill x).step? config t = none) ∨
      (t.closes = false ∧ ∃ o' : Open, ∀ x, (o.fill x).step? config t = some (none, o'.fill x)) ∨
      ∃ (hole : Slot.Hole) (isOutput : Bool),
        ∀ x, (o.fill x).step? config t = some (some (hole.fill isOutput x), start) := by
  cases hclose : t.closes with
  | true =>
    cases o with
    | inSlot hole spaced =>
      exact .inr (.inr ⟨hole, false, fun x => step?_close hclose Slot.slot?_ofValue⟩)
    | inOutput hole =>
      exact .inr (.inr ⟨hole, true, fun x => step?_close hclose Slot.slot?_ofOutput⟩)
    | asName =>
      refine .inl fun x => ?_
      simp [fill, step?, slot?, hclose]
  | false =>
    rcases advance?_cases config o t with hstop | ⟨o', hnext⟩
    · refine .inl fun x => ?_
      simp [step?, hclose, hstop x]
    · exact .inr (.inl ⟨rfl, o', fun x => step?_of_advance? hclose (hnext x)⟩)

end Open

/-- A literal is read as the value of the slot in hand, or nothing may be read there. -/
theorem step?_quoted (config : Config) (p : Progress) :
    (∀ t : Token, t.kind = .quoted → p.step? config t = none) ∨
      ∃ o : Open, ∀ t : Token, t.kind = .quoted →
        p.step? config t = some (none, o.fill t.value) := by
  have hvalue : ∀ t : Token, t.kind = .quoted → t.isValue = true := by
    intro t ht
    simp [Token.isValue, ht]
  rcases eq_shape p with rfl | ⟨name, rfl⟩ | ⟨name, value, spaced, rfl⟩ | ⟨name, value, rfl⟩
  · exact .inr ⟨.inSlot (.atValue none) false, fun t ht => step?_value (hvalue t ht)⟩
  · exact .inr ⟨.inSlot (.atValue (some name)) false, fun t ht => step?_namedValue (hvalue t ht)⟩
  · refine .inl fun t ht => ?_
    simp [step?, Token.closes, advance?_ofValue_eq, ht]
  · refine .inl fun t ht => ?_
    simp [step?, Token.closes, advance?_ofOutput_eq, ht]

end Progress

/-! ## Two runs in step -/

namespace Slot

variable {p p' q q' : Progress} {t t' last last' : Token} {ts ts' : List Token}
  {v w : Text} {R R' : List Slot → List Slot → Prop}

/-- Two outcomes are **alike** when both are slots in a given relation, or both runs stop at
the token with one number, of one kind and in one state. -/
inductive Alike (R : List Slot → List Slot → Prop) (ts ts' : List Token) :
    Except Error (List Slot) → Except Error (List Slot) → Prop
  | slots {slots slots' : List Slot} : R slots slots' → Alike R ts ts' (.ok slots) (.ok slots')
  | stopped {i : Nat} {token token' : Token} {state : SlotState} :
      ts[i]? = some token → ts'[i]? = some token' → token.kind = token'.kind →
      Alike R ts ts' (.error (.unexpectedToken token state none))
        (.error (.unexpectedToken token' state none))

/-- Two lists of slots **differ in one component** of one slot at most, which is `v` in the
first and `w` in the second. -/
def DifferInOne (v w : Text) (slots slots' : List Slot) : Prop :=
  ∃ before, ∃ (hole : Hole) (isOutput : Bool), ∃ after,
    slots = before ++ hole.fill isOutput v :: after ∧
      slots' = before ++ hole.fill isOutput w :: after

theorem DifferInOne.append {slots slots' : List Slot} (h : DifferInOne v w slots slots')
    (closed : List Slot) : DifferInOne v w (closed ++ slots) (closed ++ slots') := by
  obtain ⟨before, hole, isOutput, after, rfl, rfl⟩ := h
  exact ⟨closed ++ before, hole, isOutput, after, by simp, by simp⟩

/-- Both runs stop. -/
theorem Alike.stop (hstep : p.step? config t = none) (hstep' : p'.step? config t' = none)
    (hkind : t.kind = t'.kind) (hstate : p.state = p'.state) :
    Alike R (t :: ts) (t' :: ts') (readFrom config p last (t :: ts))
      (readFrom config p' last' (t' :: ts')) := by
  have hrun : readFrom config p last (t :: ts) = .error (.unexpectedToken t p.state none) := by
    rw [readFrom, hstep]
  have hrun' : readFrom config p' last' (t' :: ts') =
      .error (.unexpectedToken t' p.state none) := by
    rw [readFrom, hstep', hstate]
  rw [hrun, hrun']
  exact .stopped (i := 0) rfl rfl hkind

/-- Both runs go on. -/
theorem Alike.next {closed closed' : Option Slot}
    (hstep : p.step? config t = some (closed, q)) (hstep' : p'.step? config t' = some (closed', q'))
    (hR : ∀ slots slots', R' slots slots' → R (closed.toList ++ slots) (closed'.toList ++ slots'))
    (h : Alike R' ts ts' (readFrom config q t ts) (readFrom config q' t' ts')) :
    Alike R (t :: ts) (t' :: ts') (readFrom config p last (t :: ts))
      (readFrom config p' last' (t' :: ts')) := by
  rw [readFrom_cons hstep, readFrom_cons hstep']
  generalize readFrom config q t ts = run at h ⊢
  generalize readFrom config q' t' ts' = run' at h ⊢
  cases h with
  | slots hslots => exact .slots (hR _ _ hslots)
  | @stopped i token token' state hi hi' hkind => exact .stopped (i := i + 1) hi hi' hkind

/-- **One step of two runs that have read the same.** -/
theorem Alike.step
    (hR : ∀ closed slots slots', R slots slots' → R (closed ++ slots) (closed ++ slots'))
    (ht : t.lexeme = t'.lexeme)
    (hrest : ∀ closed q, p.step? config t = some (closed, q) →
      Alike R ts ts' (readFrom config q t ts) (readFrom config q t' ts')) :
    Alike R (t :: ts) (t' :: ts') (readFrom config p last (t :: ts))
      (readFrom config p last' (t' :: ts')) := by
  have hcongr : p.step? config t = p.step? config t' := Progress.step?_congr ht
  have hkind : t.kind = t'.kind := congrArg Lexeme.kind ht
  cases hstep : p.step? config t with
  | none =>
    have hstep' : p.step? config t' = none := by rw [← hcongr, hstep]
    exact .stop hstep hstep' hkind rfl
  | some next =>
    obtain ⟨closed, q⟩ := next
    have hstep' : p.step? config t' = some (closed, q) := by rw [← hcongr, hstep]
    exact .next hstep hstep' (fun _ _ => hR _ _ _) (hrest closed q hstep)

/-- **One step of two runs with different literals in hand.** When the slot is closed, both
runs have read the same from then on. -/
theorem Alike.stepOpen (o : Progress.Open) (ht : t.lexeme = t'.lexeme)
    (hopen : t.closes = false → ∀ o' : Progress.Open, Alike (DifferInOne v w) ts ts'
      (readFrom config (o'.fill v) t ts) (readFrom config (o'.fill w) t' ts'))
    (hclosed : Alike Eq ts ts' (readFrom config .start t ts) (readFrom config .start t' ts')) :
    Alike (DifferInOne v w) (t :: ts) (t' :: ts') (readFrom config (o.fill v) last (t :: ts))
      (readFrom config (o.fill w) last' (t' :: ts')) := by
  have hcongr : (o.fill w).step? config t = (o.fill w).step? config t' := Progress.step?_congr ht
  have hkind : t.kind = t'.kind := congrArg Lexeme.kind ht
  rcases o.step?_cases config t with hstop | ⟨hc, o', hnext⟩ | ⟨hole, isOutput, hclose⟩
  · have hstop' := hstop w
    rw [hcongr] at hstop'
    exact .stop (hstop v) hstop' hkind (o.state_fill v w)
  · have hnext' := hnext w
    rw [hcongr] at hnext'
    exact .next (hnext v) hnext' (fun _ _ h => h) (hopen hc o')
  · have hclose' := hclose w
    rw [hcongr] at hclose'
    refine .next (hclose v) hclose' ?_ hclosed
    rintro slots _ rfl
    exact ⟨[], hole, isOutput, slots, rfl, rfl⟩

/-- The end of the input closes the slot in hand or stops the reading. -/
theorem readFrom_after_end {closed : Option Slot} {position : Int}
    (h : p.step? config (.atEnd position) = some (closed, q)) (last : Token) :
    readFrom config q last [] = .ok [] := by
  have hq : q = .start := by
    rcases Progress.step?_cases h with ⟨_, -, -, -, hq⟩ | ⟨-, -, -, hq⟩ | ⟨hopen, -⟩
    · exact hq
    · exact hq
    · cases hopen
  rw [hq]
  rfl

open Lexeme in
/-- **Two runs that have read the same** give the same over the same lexemes, wherever these
stand. -/
theorem alike_closed (ls : List Lexeme) (p : Progress) (last last' : Token)
    (position position' : Int) :
    Alike Eq (place position ls) (place position' ls)
      (readFrom config p last (place position ls))
      (readFrom config p last' (place position' ls)) := by
  have hR : ∀ closed slots slots' : List Slot, slots = slots' →
      closed ++ slots = closed ++ slots' := by
    rintro closed slots _ rfl
    rfl
  induction ls generalizing p last last' position position' with
  | nil =>
    refine .step hR rfl fun closed q hstep => ?_
    rw [readFrom_after_end hstep, readFrom_after_end hstep]
    exact .slots rfl
  | cons l rest ih => exact .step hR rfl fun closed q _ => ih q _ _ _ _

open Lexeme in
/-- **Two runs with different literals in hand** differ in the slot of the literal alone. -/
theorem alike_open (ls : List Lexeme) (o : Progress.Open) (v w : Text) (last last' : Token)
    (position position' : Int) :
    Alike (DifferInOne v w) (place position ls) (place position' ls)
      (readFrom config (o.fill v) last (place position ls))
      (readFrom config (o.fill w) last' (place position' ls)) := by
  induction ls generalizing o last last' position position' with
  | nil =>
    refine .stepOpen o rfl (fun hopen => ?_) (.slots rfl)
    cases hopen
  | cons l rest ih =>
    exact .stepOpen o rfl (fun _ o' => ih o' _ _ _ _) (alike_closed rest .start _ _ _ _)

open Lexeme in
/-- **Two runs over the tokens around a literal.** -/
theorem alike_around (ls ls' : List Lexeme) (p : Progress) (v w : Text) (last last' : Token)
    (position position' : Int) :
    Alike (DifferInOne v w) (place position (ls ++ ⟨.quoted, v⟩ :: ls'))
      (place position' (ls ++ ⟨.quoted, w⟩ :: ls'))
      (readFrom config p last (place position (ls ++ ⟨.quoted, v⟩ :: ls')))
      (readFrom config p last' (place position' (ls ++ ⟨.quoted, w⟩ :: ls'))) := by
  induction ls generalizing p last last' position position' with
  | nil =>
    rw [List.nil_append, List.nil_append, place, place]
    rcases Progress.step?_quoted config p with hstop | ⟨o, hnext⟩
    · exact .stop (hstop _ rfl) (hstop _ rfl) rfl rfl
    · refine .next (hnext _ rfl) (hnext _ rfl) (fun _ _ h => h) ?_
      exact alike_open ls' o v w _ _ _ _
  | cons l rest ih =>
    exact .step (fun closed _ _ h => h.append closed) rfl fun closed q _ => ih q _ _ _ _

/-! ## Both outcomes -/

/-- The outcomes of two argument texts are **the same up to a part**, which is `v` in the first
and `w` in the second: both are slots that differ in one component, both texts have an open
literal, or both readings stop at the token with one number, of one kind and in one state. -/
inductive SameUpTo (config : Config) (text text' v w : Text) : Prop
  | slots (before : List Slot) (hole : Hole) (isOutput : Bool) (after : List Slot) :
      ofText config text = .ok (before ++ hole.fill isOutput v :: after) →
      ofText config text' = .ok (before ++ hole.fill isOutput w :: after) →
      SameUpTo config text text' v w
  | unclosed :
      ofText config text = .error (.unclosedQuote text.length .quoted) →
      ofText config text' = .error (.unclosedQuote text'.length .quoted) →
      SameUpTo config text text' v w
  | stopped (tokens tokens' : List Token) (token token' : Token) (i : Nat) (state : SlotState) :
      Token.ofText text = .ok tokens → Token.ofText text' = .ok tokens' →
      token.StandsAt tokens i → token'.StandsAt tokens' i → token.kind = token'.kind →
      ofText config text = .error (.unexpectedToken token state (some text)) →
      ofText config text' = .error (.unexpectedToken token' state (some text')) →
      SameUpTo config text text' v w

theorem SameUpTo.of_odd {text text' : Text} (h : text.count '\'' % 2 = 1)
    (h' : text'.count '\'' % 2 = 1) : SameUpTo config text text' v w := by
  have herror : ∀ t : Text, t.count '\'' % 2 = 1 →
      ofText config t = .error (.unclosedQuote t.length .quoted) := by
    intro t ht
    exact ofText_eq_error_iff.2 (.inl (Token.ofText_eq_error_iff_odd.2 ⟨ht, rfl⟩))
  exact .unclosed (herror text h) (herror text' h')

/-- Alike readings of the tokens of two texts have the same outcome up to a part. -/
theorem SameUpTo.of_alike {text text' : Text} {tokens tokens' : List Token}
    (htokens : Token.ofText text = .ok tokens) (htokens' : Token.ofText text' = .ok tokens')
    (h : Alike (DifferInOne v w) tokens tokens' (ofTokens config tokens)
      (ofTokens config tokens')) : SameUpTo config text text' v w := by
  generalize hrun : ofTokens config tokens = run at h
  generalize hrun' : ofTokens config tokens' = run' at h
  cases h with
  | slots hslots =>
    obtain ⟨before, hole, isOutput, after, rfl, rfl⟩ := hslots
    exact .slots before hole isOutput after (ofText_eq_ok_iff.2 ⟨tokens, htokens, hrun⟩)
      (ofText_eq_ok_iff.2 ⟨tokens', htokens', hrun'⟩)
  | @stopped i token token' state hi hi' hkind =>
    have hplace := Token.standsAt_of_nodup (Token.nodup_of_ofText htokens) hi
    have hplace' := Token.standsAt_of_nodup (Token.nodup_of_ofText htokens') hi'
    exact .stopped tokens tokens' token token' i state htokens htokens' hplace hplace' hkind
      (ofText_eq_error_iff.2 (.inr ⟨tokens, htokens, _, hrun, rfl⟩))
      (ofText_eq_error_iff.2 (.inr ⟨tokens', htokens', _, hrun', rfl⟩))

/-- **The content of a literal is confined.** Two argument texts that differ in the content of
one literal only have the same outcome up to that literal, whatever stands around it, when the
quote marks before it are even in number and none of them stands next to it. -/
theorem literal_content_confined (config : Config) {a b : Text} (ha : a.count '\'' % 2 = 0)
    (hend : a.getLast? ≠ some '\'') (hstart : b.head? ≠ some '\'') (s t : Text) :
    SameUpTo config (a ++ Literal.quote s ++ b) (a ++ Literal.quote t ++ b)
      (Literal.quote s) (Literal.quote t) := by
  by_cases hb : b.count '\'' % 2 = 1
  · -- a literal after this one is left open
    have hodd : ∀ x : Text, (a ++ Literal.quote x ++ b).count '\'' % 2 = 1 := by
      intro x
      rw [Lexeme.count_around]
      omega
    exact .of_odd (hodd s) (hodd t)
  · obtain ⟨ls, hls⟩ := Lexeme.exists_spells_of_even ha
    obtain ⟨ls', hls'⟩ := Lexeme.exists_spells_of_even (t := b) (by omega)
    have htokens : ∀ x : Text, Token.ofText (a ++ Literal.quote x ++ b) =
        .ok (Lexeme.place 0 (ls ++ ⟨.quoted, Literal.quote x⟩ :: ls')) := by
      intro x
      exact Token.ofText_eq_ok_iff.2 ⟨_, Lexeme.spells_around hls hls' hend hstart x, rfl⟩
    exact .of_alike (htokens s) (htokens t) (alike_around ls ls' .start _ _ _ _ 0 0)

/-- Commas, keywords and marks inside a literal do not count. -/
theorem literal_content_confined_of_named :
    let a : Text := "@n = ".toList
    let b : Text := " OUT, 5".toList
    let s : Text := "it's, @m = 'x' OUT".toList
    a.count '\'' % 2 = 0 ∧ a.getLast? ≠ some '\'' ∧ b.head? ≠ some '\'' ∧
      SameUpTo .standard (a ++ Literal.quote s ++ b) (a ++ Literal.quote [] ++ b)
        (Literal.quote s) (Literal.quote []) ∧
      ofText .standard (a ++ Literal.quote s ++ b) =
        .ok [.named "@n".toList (Literal.quote s) true, .positional "5".toList false] := by
  intro a b s
  have ha : a.count '\'' % 2 = 0 := by decide
  have hend : a.getLast? ≠ some '\'' := by decide
  have hstart : b.head? ≠ some '\'' := by decide
  exact ⟨ha, hend, hstart, literal_content_confined .standard ha hend hstart s [], rfl⟩

end Slot

end ProcCall
