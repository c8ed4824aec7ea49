import ProcCall.Proofs.Lexemes

/-!
# The reader of argument text as a machine

The reader looks again and again until it is behind the end of the text. At every look it has
found some lexemes, stands behind a part of the next one, and the text from the start of that part
on is still to be cut. This stays so from look to look (`Reading.At`), and at the end it says that
the reader has found the lexemes of the text.

* `Reading.step_location`, `Reading.Loop`: how a look moves the reader, and the loop of its looks.
* `Reading.loop_iff`: the run of a reader is its loop.
* `Reading.Within`, `Reading.Ends`: what a character is to the token that the reader is in.
* `Reading.At.step_fresh`, `Reading.At.step_within`, `Reading.At.step_ends`: one look.
* `Reading.At.feed`, `Reading.At.runFrom`: the looks at one character, and a run.
* `Token.ofText_eq`: the reader finds the lexemes of the text, or a literal that is left open.
-/

namespace ProcCall

open Lexeme

namespace Reading

variable {t w rest : Text} {c : Char} {look : Option Char} {r r' : Reading} {e : Error}
  {outcome : Except Error Reading} {found : List Lexeme} {state : LexState}

@[simp] theorem advance_location (state : LexState) (r : Reading) :
    (r.advance state).location = r.location + 1 := rfl

@[simp] theorem emit_location (t : Text) (kind : TokenKind) (stop : Nat) (r : Reading) :
    (r.emit t kind stop).location = r.location := rfl

/-! ## The loop -/

/-- A fresh reader goes on to the next character. -/
theorem step_fresh (hr : r.state = .fresh) (look : Option Char) :
    step t look r = .ok (advance (opening look) { r with start := r.location }) := by
  unfold step
  rw [hr]

/-- **One look** moves the reader to the next character, or it ends a token and leaves the reader
fresh where it was. -/
theorem step_location (h : step t look r = .ok r') :
    r'.location = r.location + 1 ∨ r'.location = r.location ∧ r'.state = .fresh := by
  obtain ⟨state, start, location, tokens⟩ := r
  cases state with
  | fresh =>
    cases h
    exact .inl rfl
  | text =>
    cases h
    split
    · exact .inr ⟨rfl, rfl⟩
    · exact .inl rfl
  | quoted =>
    cases look with
    | none => cases h
    | some c =>
      cases h
      exact .inl rfl
  | quotedEnd =>
    cases h
    split
    · exact .inl rfl
    · exact .inr ⟨rfl, rfl⟩
  | blank =>
    cases h
    split
    · exact .inl rfl
    · exact .inr ⟨rfl, rfl⟩
  | comma | equals =>
    cases h
    exact .inr ⟨rfl, rfl⟩

theorem feed_of_moved (h : step t look r = .ok r') (hmoved : r'.location = r.location + 1) :
    feed t look r = .ok r' := by
  have hne : r'.location ≠ r.location := by omega
  simp [feed, h, Bind.bind, Except.bind, hne]

theorem feed_of_stayed (h : step t look r = .ok r') (hstayed : r'.location = r.location) :
    feed t look r = step t look r' := by
  simp [feed, h, Bind.bind, Except.bind, hstayed]

theorem feed_error (h : step t look r = .error e) : feed t look r = .error e := by
  simp [feed, h, Bind.bind, Except.bind]

/-- **The loop of a reader**, from a reading to what comes of it: it looks again until it is behind
the end of the text. At the end it looks at no character. -/
inductive Loop (t : Text) : Reading → Except Error Reading → Prop
  | done {r : Reading} (h : t.length < r.location) : Loop t r (.ok r)
  | next {r r' : Reading} {outcome : Except Error Reading} (h : r.location ≤ t.length)
      (hstep : step t t[r.location]? r = .ok r') (hloop : Loop t r' outcome) : Loop t r outcome
  | failed {r : Reading} {e : Error} (h : r.location ≤ t.length)
      (hstep : step t t[r.location]? r = .error e) : Loop t r (.error e)

theorem Loop.unique {other : Except Error Reading} (h : Loop t r outcome) (h' : Loop t r other) :
    outcome = other := by
  induction h with
  | done hlt =>
    cases h' with
    | done => rfl
    | next hle => omega
    | failed hle => omega
  | next hle hstep _ ih =>
    cases h' with
    | done hlt => omega
    | next _ hstep' hloop' =>
      rw [hstep] at hstep'
      cases hstep'
      exact ih hloop'
    | failed _ hstep' =>
      rw [hstep] at hstep'
      cases hstep'
  | failed hle hstep =>
    cases h' with
    | done hlt => omega
    | next _ hstep' =>
      rw [hstep] at hstep'
      cases hstep'
    | failed _ hstep' =>
      rw [hstep] at hstep'
      cases hstep'
      rfl

/-- **The looks at one character** belong to the loop and bring the reader to the next one. -/
theorem Loop.of_feed (hle : r.location ≤ t.length) :
    (∀ r', feed t t[r.location]? r = .ok r' → r'.location = r.location + 1 ∧
      ∀ outcome, Loop t r' outcome → Loop t r outcome) ∧
    ∀ e, feed t t[r.location]? r = .error e → Loop t r (.error e) := by
  cases hfirst : step t t[r.location]? r with
  | error e =>
    rw [feed_error hfirst]
    refine ⟨nofun, ?_⟩
    rintro _ ⟨⟩
    exact .failed hle hfirst
  | ok next =>
    rcases step_location hfirst with hmoved | ⟨hstayed, hfresh⟩
    · rw [feed_of_moved hfirst hmoved]
      refine ⟨?_, nofun⟩
      rintro _ ⟨⟩
      exact ⟨hmoved, fun outcome hloop => .next hle hfirst hloop⟩
    · -- the token ended before the character, and a fresh reader takes it
      have hsecond := step_fresh (t := t) hfresh t[next.location]?
      rw [feed_of_stayed hfirst hstayed, ← hstayed, hsecond]
      refine ⟨?_, nofun⟩
      rintro _ ⟨⟩
      refine ⟨rfl, fun outcome hloop => .next hle hfirst ?_⟩
      exact .next (by omega) hsecond hloop

theorem loop_runFrom (hrest : t.drop r.location = rest) (hle : r.location ≤ t.length) :
    Loop t r (runFrom t r rest) := by
  induction rest generalizing r with
  | nil =>
    have hend : t.length ≤ r.location := List.drop_eq_nil_iff.1 hrest
    have hlook : t[r.location]? = none := List.getElem?_eq_none hend
    obtain ⟨hok, herror⟩ := Loop.of_feed hle
    rw [hlook] at hok herror
    rw [runFrom]
    cases hfeed : feed t none r with
    | error e => exact herror e hfeed
    | ok r' =>
      obtain ⟨hmoved, hgo⟩ := hok r' hfeed
      exact hgo _ (.done (by omega))
  | cons c rest ih =>
    have hlook : t[r.location]? = some c := by
      rw [← List.head?_drop, hrest]
      rfl
    obtain ⟨hok, herror⟩ := Loop.of_feed hle
    rw [hlook] at hok herror
    rw [runFrom]
    cases hfeed : feed t (some c) r with
    | error e => exact herror e hfeed
    | ok r' =>
      obtain ⟨hmoved, hgo⟩ := hok r' hfeed
      have hlt : r.location < t.length := (List.getElem?_eq_some_iff.1 hlook).1
      have hrest' : t.drop r'.location = rest := by
        rw [hmoved, ← List.drop_drop, hrest]
        rfl
      exact hgo _ (ih hrest' (by omega))

/-- **The run of a reader is its loop** over the text. -/
theorem loop_iff : Loop t {} outcome ↔ outcome = run t := by
  have hrun : Loop t {} (run t) := loop_runFrom rfl (Nat.zero_le _)
  constructor
  · exact fun h => h.unique hrun
  · rintro rfl
    exact hrun

/-! ## What stands between the start of a token and the reader -/

/-- The form of what stands between the start of a token and the reader. -/
def Pending : LexState → Text → Prop
  | .fresh, w => w = []
  | .text, w => WellFormed ⟨.text, w⟩
  -- only the closing mark is missing
  | .quoted, w => WellFormed ⟨.quoted, w ++ ['\'']⟩
  | .quotedEnd, w => WellFormed ⟨.quoted, w⟩
  | .blank, w => WellFormed ⟨.blank, w⟩
  | .comma, w => WellFormed ⟨.comma, w⟩
  | .equals, w => WellFormed ⟨.equals, w⟩

theorem endsValue_eq_false_iff : endsValue (some c) = false ↔ IsWordChar c := by
  simp [endsValue, IsWordChar, and_assoc]

theorem pending_opening (c : Char) : Pending (opening (some c)) [c] := by
  unfold opening
  simp only
  split_ifs with hquote hcomma hequals hblank
  · rw [hquote]
    exact ⟨[], rfl, evenQuotes_nil⟩
  · rw [hcomma]
    rfl
  · rw [hequals]
    rfl
  · exact ⟨by simp, by simpa using hblank⟩
  · have hword : IsWordChar c := ⟨hquote, hcomma, hequals, by simpa using hblank⟩
    exact ⟨by simp, by simpa using hword⟩

/-- A literal that is left open is the beginning of one that is closed. -/
theorem pending_quoted_iff : Pending .quoted w ↔ ∃ s, w = '\'' :: Literal.double s := by
  constructor
  · intro h
    obtain ⟨s, hs⟩ := wellFormed_quoted_iff.1 h
    exact ⟨s, List.append_cancel_right hs⟩
  · rintro ⟨s, rfl⟩
    exact wellFormed_quoted_iff.2 ⟨s, rfl⟩

theorem scan_pending_quoted (h : Pending .quoted w) : scan false w = none := by
  obtain ⟨s, rfl⟩ := pending_quoted_iff.1 h
  have hkind : kindOf '\'' = .quoted := rfl
  rw [scan, hkind]
  simp only
  rw [scan_double]
  rfl

/-! ## What a look finds -/

/-- Whether a look ends the token that a reader is in, and the kind of the token. -/
inductive Ends : LexState → TokenKind → Option Char → Prop
  | text {look : Option Char} (h : endsValue look = true) : Ends .text .text look
  | quoted {look : Option Char} (h : look ≠ some '\'') : Ends .quotedEnd .quoted look
  | blank {look : Option Char} (h : look.any Text.isBlank = false) : Ends .blank .blank look
  | comma {look : Option Char} : Ends .comma .comma look
  | equals {look : Option Char} : Ends .equals .equals look

/-- Whether a character belongs to the token that a reader is in, and what the reader is then in
the middle of. -/
inductive Within : LexState → Char → LexState → Prop
  | text {c : Char} (h : endsValue (some c) = false) : Within .text c .text
  | quoted {c : Char} (h : c ≠ '\'') : Within .quoted c .quoted
  | mark : Within .quoted '\'' .quotedEnd
  | doubled : Within .quotedEnd '\'' .quoted
  | blank {c : Char} (h : Text.isBlank c = true) : Within .blank c .blank

/-- **What a character is to a token**: its end, or a part of it. -/
theorem ends_or_within (hstate : state ≠ .fresh) (c : Char) :
    (∃ kind, Ends state kind (some c)) ∨ ∃ next, Within state c next := by
  cases state with
  | fresh => exact absurd rfl hstate
  | text =>
    cases hvalue : endsValue (some c) with
    | true => exact .inl ⟨_, .text hvalue⟩
    | false => exact .inr ⟨_, .text hvalue⟩
  | quoted =>
    by_cases hc : c = '\''
    · subst hc
      exact .inr ⟨_, .mark⟩
    · exact .inr ⟨_, .quoted hc⟩
  | quotedEnd =>
    by_cases hc : c = '\''
    · subst hc
      exact .inr ⟨_, .doubled⟩
    · exact .inl ⟨_, .quoted (by simpa using hc)⟩
  | blank =>
    cases hblank : Text.isBlank c with
    | true => exact .inr ⟨_, .blank hblank⟩
    | false => exact .inl ⟨_, .blank hblank⟩
  | comma => exact .inl ⟨_, .comma⟩
  | equals => exact .inl ⟨_, .equals⟩

/-- The end of the text ends every token but an open literal. -/
theorem ends_none (hfresh : state ≠ .fresh) (hquoted : state ≠ .quoted) :
    ∃ kind, Ends state kind none := by
  cases state with
  | fresh => exact absurd rfl hfresh
  | quoted => exact absurd rfl hquoted
  | text => exact ⟨_, .text rfl⟩
  | quotedEnd => exact ⟨_, .quoted nofun⟩
  | blank => exact ⟨_, .blank rfl⟩
  | comma => exact ⟨_, .comma⟩
  | equals => exact ⟨_, .equals⟩

theorem step_quoted_none (hr : r.state = .quoted) :
    step t none r = .error (.unclosedQuote r.location .quoted) := by
  unfold step
  rw [hr]

theorem Ends.wellFormed {kind : TokenKind} (h : Ends state kind look) (hw : Pending state w) :
    WellFormed ⟨kind, w⟩ := by
  cases h <;> exact hw

/-- Only a separator ends before a character of its own kind. -/
theorem Ends.separator {kind : TokenKind} (h : Ends state kind (some c)) (hkind : kindOf c = kind) :
    kind = .comma ∨ kind = .equals := by
  cases h with
  | text hvalue =>
    rw [endsValue_eq_false_iff.2 (isWordChar_of_kindOf hkind)] at hvalue
    cases hvalue
  | quoted hmark => exact absurd (congrArg some (kindOf_eq_quoted_iff.1 hkind)) hmark
  | blank hblank =>
    rw [Option.any_some, isBlank_of_kindOf hkind] at hblank
    cases hblank
  | comma => exact .inl rfl
  | equals => exact .inr rfl

theorem Ends.step {kind : TokenKind} (h : Ends r.state kind look) (hw : Pending r.state w)
    (hlocation : r.location = r.start + w.length) :
    step t look r = .ok (r.emit t kind r.location) := by
  obtain ⟨state, start, location, tokens⟩ := r
  cases h with
  | text hvalue => simp [Reading.step, hvalue]
  | quoted hmark => simp [Reading.step, hmark]
  | blank hblank => simp [Reading.step, hblank]
  | comma =>
    obtain rfl : w = [','] := hw
    obtain rfl : location = start + 1 := hlocation
    rfl
  | equals =>
    obtain rfl : w = ['='] := hw
    obtain rfl : location = start + 1 := hlocation
    rfl

theorem Within.step {next : LexState} (h : Within r.state c next) :
    step t (some c) r = .ok (r.advance next) := by
  obtain ⟨state, start, location, tokens⟩ := r
  cases h with
  | text hvalue => simp [Reading.step, hvalue]
  | quoted hmark => simp [Reading.step, hmark]
  | mark => rfl
  | doubled => rfl
  | blank hblank => simp [Reading.step, hblank]

theorem Within.pending {next : LexState} (h : Within state c next) (hw : Pending state w) :
    Pending next (w ++ [c]) := by
  cases h with
  | text hvalue =>
    have hc := endsValue_eq_false_iff.1 hvalue
    exact ⟨by simp, List.forall_mem_append.2 ⟨hw.2, List.forall_mem_singleton.2 hc⟩⟩
  | quoted hmark =>
    obtain ⟨s, rfl⟩ := pending_quoted_iff.1 hw
    refine pending_quoted_iff.2 ⟨s ++ [c], ?_⟩
    rw [Literal.double_concat]
    simp [Literal.double, hmark]
  | mark => exact hw
  | doubled =>
    obtain ⟨s, rfl⟩ := wellFormed_quoted_iff.1 hw
    refine pending_quoted_iff.2 ⟨s ++ ['\''], ?_⟩
    rw [Literal.double_concat]
    simp [Literal.quote, Literal.double]
  | blank hblank =>
    exact ⟨by simp, List.forall_mem_append.2 ⟨hw.2, List.forall_mem_singleton.2 hblank⟩⟩

/-! ## One look -/

/-- **What a reader knows** when it has found some lexemes: `w` stands between them and the reader,
and the text from `w` on is still to be cut. -/
structure At (t : Text) (found : List Lexeme) (w rest : Text) (r : Reading) : Prop where
  text : spelled found ++ w ++ rest = t
  tokens : r.tokens = placed 0 found
  location : r.location = (spelled found ++ w).length
  start : r.state ≠ .fresh → r.start = (spelled found).length
  pending : Pending r.state w
  lexemes : scan false t = (scan false (w ++ rest)).map (found ++ ·)

theorem at_start (t : Text) : At t [] [] t {} where
  text := rfl
  tokens := rfl
  location := rfl
  start := fun h => absurd rfl h
  pending := rfl
  lexemes := by simp

/-- A reader goes one character on inside a token. -/
theorem At.advance (h : At t found w (c :: rest) r) (hstart : r.start = (spelled found).length)
    (hpending : Pending state (w ++ [c])) : At t found (w ++ [c]) rest (r.advance state) where
  text := by rw [← h.text]; simp
  tokens := h.tokens
  location := by simp [h.location, Nat.add_assoc]
  start := fun _ => hstart
  pending := hpending
  lexemes := by rw [h.lexemes, List.append_assoc, List.singleton_append]

/-- A fresh reader has found lexemes whole. -/
theorem At.pending_of_fresh (h : At t found w rest r) (hr : r.state = .fresh) : w = [] := by
  have hpending := h.pending
  rw [hr] at hpending
  exact hpending

/-- **A fresh reader** begins the next token. -/
theorem At.step_fresh (h : At t found w (c :: rest) r) (hr : r.state = .fresh) :
    ∃ r', step t (some c) r = .ok r' ∧ r'.location = r.location + 1 ∧ At t found [c] rest r' := by
  obtain rfl := h.pending_of_fresh hr
  have hlocation : r.location = (spelled found).length := by rw [h.location, List.append_nil]
  have hbegun : At t found [] (c :: rest) { r with start := r.location } :=
    ⟨h.text, h.tokens, h.location, fun _ => hlocation, h.pending, h.lexemes⟩
  exact ⟨_, Reading.step_fresh hr _, rfl, hbegun.advance hlocation (pending_opening c)⟩

/-- **A look inside a token** takes the character. -/
theorem At.step_within {next : LexState} (h : At t found w (c :: rest) r)
    (hr : r.state ≠ .fresh) (hwithin : Within r.state c next) :
    ∃ r', step t (some c) r = .ok r' ∧ r'.location = r.location + 1 ∧
      At t found (w ++ [c]) rest r' :=
  ⟨_, hwithin.step, rfl, h.advance (h.start hr) (hwithin.pending h.pending)⟩

/-- **A look that ends a token** leaves it behind. -/
theorem At.step_ends {kind : TokenKind} (h : At t found w rest r) (hr : r.state ≠ .fresh)
    (hends : Ends r.state kind rest.head?) :
    ∃ r', step t rest.head? r = .ok r' ∧ r'.location = r.location ∧ r'.state = .fresh ∧
      At t (found ++ [⟨kind, w⟩]) [] rest r' := by
  have hlocation : r.location = r.start + w.length := by
    rw [h.location, h.start hr, List.length_append]
  have hvalue : t.extract r.start r.location = w := by
    rw [List.extract_eq_take_drop, hlocation, h.start hr, ← h.text, Nat.add_sub_cancel_left,
      List.append_assoc, List.drop_left, List.take_left]
  have hnext : ∀ c ∈ rest.head?, kindOf c = kind → kind = .comma ∨ kind = .equals := by
    intro c hc hkind
    rw [hc] at hends
    exact hends.separator hkind
  refine ⟨_, hends.step h.pending hlocation, rfl, rfl, ?_⟩
  exact {
    text := by rw [← h.text]; simp
    tokens := by
      rw [placed_append, ← h.tokens, Int.zero_add, ← h.start hr, Reading.emit, hvalue]
      rfl
    location := by simp [h.location]
    start := fun hne => absurd rfl hne
    pending := rfl
    lexemes := by
      rw [h.lexemes, scan_append (hends.wellFormed h.pending) hnext, Option.map_map]
      congr 1
      funext ls
      simp }

/-! ## A run -/

/-- **The looks at one character** take the reader behind it. -/
theorem At.feed (h : At t found w (c :: rest) r) :
    ∃ r' found' w', feed t (some c) r = .ok r' ∧ At t found' w' rest r' := by
  by_cases hr : r.state = .fresh
  · obtain ⟨r', hstep, hmoved, hr'⟩ := h.step_fresh hr
    exact ⟨r', found, [c], feed_of_moved hstep hmoved, hr'⟩
  · rcases ends_or_within hr c with ⟨kind, hends⟩ | ⟨next, hwithin⟩
    · obtain ⟨r₁, hstep₁, hstayed, hfresh, hr₁⟩ := h.step_ends hr hends
      obtain ⟨r', hstep, -, hr'⟩ := hr₁.step_fresh hfresh
      exact ⟨r', _, [c], (feed_of_stayed hstep₁ hstayed).trans hstep, hr'⟩
    · obtain ⟨r', hstep, hmoved, hr'⟩ := h.step_within hr hwithin
      exact ⟨r', found, w ++ [c], feed_of_moved hstep hmoved, hr'⟩

/-- A fresh reader at the end has found all lexemes. -/
theorem At.scan_of_fresh (h : At t found w [] r) (hr : r.state = .fresh) :
    scan false t = some found ∧ spelled found = t := by
  obtain rfl := h.pending_of_fresh hr
  have hscan := h.lexemes
  have htext := h.text
  simp only [List.append_nil, scan, Option.map_some] at hscan htext
  exact ⟨hscan, htext⟩

/-- What a run over a text comes to: the lexemes of the text, or a literal that is left open at its
end. -/
inductive Finds (t : Text) : Except Error Reading → Prop
  | lexemes {r : Reading} {ls : List Lexeme} (htokens : r.tokens = placed 0 ls)
      (hscan : scan false t = some ls) (htext : spelled ls = t) : Finds t (.ok r)
  | openLiteral (hscan : scan false t = none) :
      Finds t (.error (.unclosedQuote t.length .quoted))

/-- **The looks at the end of the text** leave no lexeme to be found. -/
theorem At.feed_none (h : At t found w [] r) : Finds t (Reading.feed t none r) := by
  by_cases hr : r.state = .fresh
  · obtain ⟨hscan, htext⟩ := h.scan_of_fresh hr
    rw [feed_of_moved (Reading.step_fresh hr none) rfl]
    exact .lexemes h.tokens hscan htext
  · by_cases hopen : r.state = .quoted
    · have hpending := h.pending
      rw [hopen] at hpending
      have hscan := h.lexemes
      rw [List.append_nil, scan_pending_quoted hpending] at hscan
      have hlocation : r.location = t.length := by rw [h.location, ← h.text, List.append_nil]
      rw [feed_error (step_quoted_none hopen), hlocation]
      exact .openLiteral hscan
    · -- the last token ends here, and a fresh reader goes past the end
      obtain ⟨kind, hends⟩ := ends_none hr hopen
      obtain ⟨r₁, hstep, hstayed, hfresh, hr₁⟩ := h.step_ends hr hends
      obtain ⟨hscan, htext⟩ := hr₁.scan_of_fresh hfresh
      rw [List.head?_nil] at hstep
      rw [feed_of_stayed hstep hstayed, Reading.step_fresh hfresh]
      exact .lexemes hr₁.tokens hscan htext

/-- **A run** from anywhere in a text. -/
theorem At.runFrom (h : At t found w rest r) : Finds t (Reading.runFrom t r rest) := by
  induction rest generalizing found w r with
  | nil => exact h.feed_none
  | cons c rest ih =>
    obtain ⟨r', found', w', hfeed, hr'⟩ := h.feed
    have hrest := ih hr'
    rw [Reading.runFrom, hfeed]
    exact hrest

theorem finds_run (t : Text) : Finds t (run t) := (at_start t).runFrom

end Reading

/-- **The tokens of a text** are its lexemes, each in its place. The reader fails at the end of a
text that leaves a literal open, inside the literal. -/
theorem Token.ofText_eq (t : Text) : Token.ofText t =
    match Lexeme.ofText? t with
    | some ls => .ok (Lexeme.place 0 ls)
    | none => .error (.unclosedQuote t.length .quoted) := by
  have hrun := Reading.finds_run t
  unfold Token.ofText Lexeme.ofText?
  generalize Reading.run t = outcome at hrun
  cases hrun with
  | lexemes htokens hscan htext =>
    rw [hscan]
    simp only [Bind.bind, Except.bind]
    rw [htokens, place_eq_placed, htext, Int.zero_add]
  | openLiteral hscan =>
    rw [hscan]
    rfl

/-- **A text that has no tokens** leaves a literal open at its end. -/
theorem Token.eq_unclosedQuote_of_ofText {t : Text} {e : Error} (h : Token.ofText t = .error e) :
    e = .unclosedQuote t.length .quoted := by
  rw [Token.ofText_eq] at h
  split at h
  · cases h
  · exact (Except.error.inj h).symm

/-- The tokens of a spelled text are its lexemes, each in its place. -/
theorem Token.ofText_spelled {ls : List Lexeme} (hform : ∀ l ∈ ls, l.WellFormed)
    (hchain : ls.IsChain Lexeme.MayFollow) :
    Token.ofText (Lexeme.spelled ls) = .ok (Lexeme.place 0 ls) := by
  rw [Token.ofText_eq, Lexeme.ofText?, Lexeme.scan_spelled hform hchain]

end ProcCall
