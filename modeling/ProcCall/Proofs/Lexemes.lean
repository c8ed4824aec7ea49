import ProcCall.Proofs.Quotes
import Mathlib.Data.Bool.AllAny
import Mathlib.Data.List.Chain

/-!
# Scanning spelled lexemes

Well-formed lexemes of which no two neighbours could be one lexeme are read back from the
text that they spell.

* `wellFormed_singleton`, `wellFormed_quoted_iff`: the form of some lexemes.
* `scan_word`, `scan_blanks`, `scan_quoted`: the kinds of lexemes at the start of a text.
* `scan_append`: a lexeme at the start of a text and what follows it.
* `scan_spelled`: a whole list of lexemes.
* `place_append`, `place_eq_placed`, `nodup_place`: lexemes in their places.
-/

namespace ProcCall

namespace Lexeme

variable {c : Char} {t value rest : Text} {l : Lexeme} {ls : List Lexeme}

instance (c : Char) : Decidable (IsWordChar c) :=
  inferInstanceAs (Decidable (c ≠ '\'' ∧ c ≠ ',' ∧ c ≠ '=' ∧ Text.isBlank c = false))

/-- No digit is a blank or means something else in a call. -/
theorem isWordChar_of_isDigit (h : c.isDigit = true) : IsWordChar c := by
  have hrange : 48 ≤ c.toNat ∧ c.toNat ≤ 57 := by
    simpa [Char.isDigit, UInt32.le_iff_toNat_le] using h
  have hne : ∀ d : Char, d.toNat < 48 ∨ 57 < d.toNat → c ≠ d := by
    rintro d hd rfl
    omega
  refine ⟨hne _ (by decide), hne _ (by decide), hne _ (by decide), ?_⟩
  simp only [Text.isBlank, Bool.or_eq_false_iff, Bool.and_eq_false_iff, decide_eq_false_iff_not,
    beq_eq_false_iff_ne]
  omega

theorem kindOf_word (h : IsWordChar c) : kindOf c = .text := by
  obtain ⟨hquote, hcomma, hequals, hblank⟩ := h
  simp [kindOf, hquote, hcomma, hequals, hblank]

theorem kindOf_blank (h : Text.isBlank c = true) : kindOf c = .blank := by
  have hne : ∀ d, Text.isBlank d = false → c ≠ d := by
    rintro d hd rfl
    rw [h] at hd; cases hd
  simp [kindOf, h, hne '\'' rfl, hne ',' rfl, hne '=' rfl]

theorem kindOf_eq_quoted_iff : kindOf c = .quoted ↔ c = '\'' := by
  unfold kindOf
  constructor
  · intro h
    refine Classical.byContradiction fun hc => ?_
    rw [if_neg hc] at h
    repeat' split at h
    all_goals cases h
  · intro h; rw [if_pos h]

/-- A character outside a literal is a lexeme of its kind. -/
theorem wellFormed_singleton (h : kindOf c ≠ .quoted) : WellFormed ⟨kindOf c, [c]⟩ := by
  unfold kindOf at h ⊢
  split_ifs with hquote hcomma hequals hblank
  · exact absurd (if_pos hquote) h
  · rw [hcomma]
    rfl
  · rw [hequals]
    rfl
  · exact ⟨by simp, by simpa using hblank⟩
  · have hword : IsWordChar c := ⟨hquote, hcomma, hequals, by simpa using hblank⟩
    exact ⟨by simp, by simpa using hword⟩

theorem isWordChar_of_kindOf (h : kindOf c = .text) : IsWordChar c := by
  have hform := wellFormed_singleton (c := c) (by simp [h])
  rw [h] at hform
  exact hform.2 c List.mem_cons_self

theorem isBlank_of_kindOf (h : kindOf c = .blank) : Text.isBlank c = true := by
  have hform := wellFormed_singleton (c := c) (by simp [h])
  rw [h] at hform
  exact hform.2 c List.mem_cons_self

/-- Quoted lexemes are the quoted forms of strings. -/
theorem wellFormed_quoted_iff : WellFormed ⟨.quoted, value⟩ ↔ ∃ s, value = Literal.quote s := by
  constructor
  · rintro ⟨body, rfl, heven⟩
    obtain ⟨s, rfl⟩ := evenQuotes_iff_double.1 heven
    exact ⟨s, rfl⟩
  · rintro ⟨s, rfl⟩
    exact ⟨Literal.double s, rfl, evenQuotes_iff_double.2 ⟨s, rfl⟩⟩

/-- A lexeme starts with a character of its kind. -/
theorem WellFormed.head (h : WellFormed l) :
    ∃ c others, l.value = c :: others ∧ kindOf c = l.kind := by
  obtain ⟨kind, value⟩ := l
  cases kind with
  | text =>
    obtain ⟨hne, hall⟩ := h
    obtain ⟨c, others, rfl⟩ := List.exists_cons_of_ne_nil hne
    exact ⟨c, others, rfl, kindOf_word (hall c List.mem_cons_self)⟩
  | quoted =>
    obtain ⟨body, rfl, -⟩ := h
    exact ⟨'\'', body ++ ['\''], rfl, rfl⟩
  | blank =>
    obtain ⟨hne, hall⟩ := h
    obtain ⟨c, others, rfl⟩ := List.exists_cons_of_ne_nil hne
    exact ⟨c, others, rfl, kindOf_blank (hall c List.mem_cons_self)⟩
  | comma => exact ⟨',', [], h, rfl⟩
  | equals => exact ⟨'=', [], h, rfl⟩
  | endOfInput => exact absurd h id

/-! ## One lexeme -/

/-- Characters of one kind before lexemes of which the first is of another kind. -/
theorem foldr_extend {kind : TokenKind} (hne : value ≠ []) (h : ∀ l ∈ ls.head?, l.kind ≠ kind) :
    value.foldr (extend kind) ls = ⟨kind, value⟩ :: ls := by
  induction value with
  | nil => exact absurd rfl hne
  | cons c others ih =>
    rw [List.foldr_cons]
    cases others with
    | nil =>
      cases ls with
      | nil => rfl
      | cons l ls => simp [extend, h l rfl]
    | cons d others => rw [ih (by simp)]; simp [extend]

theorem scan_word (h : ∀ c ∈ value, IsWordChar c) : scan false (value ++ rest) =
    (scan false rest).map (value.foldr (extend .text) ·) := by
  induction value with
  | nil => simp
  | cons c others ih =>
    have hc := kindOf_word (h c List.mem_cons_self)
    rw [List.cons_append, scan, hc]
    simp only
    rw [ih fun d hd => h d (List.mem_cons_of_mem _ hd), Option.map_map]
    rfl

theorem scan_blanks (h : ∀ c ∈ value, Text.isBlank c = true) : scan false (value ++ rest) =
    (scan false rest).map (value.foldr (extend .blank) ·) := by
  induction value with
  | nil => simp
  | cons c others ih =>
    have hc := kindOf_blank (h c List.mem_cons_self)
    rw [List.cons_append, scan, hc]
    simp only
    rw [ih fun d hd => h d (List.mem_cons_of_mem _ hd), Option.map_map]
    rfl

/-- Inside a literal the scan comes to the quote mark that no other one follows. -/
theorem scan_inside (s : Text) (h : rest.head? ≠ some '\'') :
    scan true (Literal.double s ++ '\'' :: rest) =
      (scan false rest).map (⟨.quoted, Literal.double s ++ ['\'']⟩ :: ·) := by
  induction s with
  | nil =>
    -- no other mark follows this one, so the literal ends
    cases rest with
    | nil => rfl
    | cons d others =>
      have hd : d ≠ '\'' := by simpa using h
      rw [Literal.double, List.nil_append, scan]
      · rfl
      · intro _ heq
        exact hd (List.cons.inj heq).1
  | cons c s ih =>
    unfold Literal.double
    by_cases hc : c = '\''
    · rw [if_pos hc, hc]
      simp only [List.cons_append, scan, ih, Option.map_map]
      rfl
    · rw [if_neg hc, List.cons_append, scan, ih, Option.map_map]
      · rfl
      · intro _ heq _; exact hc heq
      · intro heq; exact hc heq

/-- No literal is closed by what it may be made of. -/
theorem scan_double (s : Text) : scan true (Literal.double s) = none := by
  induction s with
  | nil => rfl
  | cons c s ih =>
    unfold Literal.double
    by_cases hc : c = '\''
    · rw [if_pos hc, hc, scan, ih]
      rfl
    · rw [if_neg hc, scan, ih]
      · rfl
      · intro _ heq _
        exact hc heq
      · exact hc

theorem scan_quoted (s : Text) (h : rest.head? ≠ some '\'') :
    scan false ('\'' :: Literal.double s ++ ['\''] ++ rest) =
      (scan false rest).map (⟨.quoted, '\'' :: Literal.double s ++ ['\'']⟩ :: ·) := by
  have hkind : kindOf '\'' = .quoted := rfl
  rw [List.append_assoc, List.singleton_append, List.cons_append, scan, hkind]
  simp only
  rw [scan_inside s h, Option.map_map]
  rfl

/-- What is put before lexemes is first among them. -/
theorem head?_extend {kind : TokenKind} (hl : l ∈ (extend kind c ls).head?) : l.kind = kind := by
  cases ls with
  | nil =>
    cases hl
    rfl
  | cons m rest =>
    by_cases heq : m.kind = kind
    · rw [extend, if_pos heq] at hl
      cases hl
      exact heq
    · rw [extend, if_neg heq] at hl
      cases hl
      rfl

/-- The first character of a text is of the kind of the first lexeme. -/
theorem head?_scan (h : scan false t = some ls) (hl : l ∈ ls.head?) :
    ∃ c ∈ t.head?, kindOf c = l.kind := by
  cases t with
  | nil =>
    cases h
    cases hl
  | cons c rest =>
    refine ⟨c, rfl, ?_⟩
    rw [scan] at h
    split at h
    · next hkind =>
      obtain ⟨others, -, rfl⟩ := Option.map_eq_some_iff.1 h
      rw [head?_extend hl, hkind]
    · next hkind =>
      obtain ⟨others, -, rfl⟩ := Option.map_eq_some_iff.1 h
      rw [head?_extend hl, hkind]
    · next hkind =>
      obtain ⟨others, -, rfl⟩ := Option.map_eq_some_iff.1 h
      rw [head?_extend hl, hkind]
    · obtain ⟨others, -, rfl⟩ := Option.map_eq_some_iff.1 h
      cases hl
      rfl

/-- **A lexeme at the start of a text** is read whole, unless the next character belongs to it. -/
theorem scan_append {kind : TokenKind} (hl : WellFormed ⟨kind, value⟩)
    (hnext : ∀ c ∈ rest.head?, kindOf c = kind → kind = .comma ∨ kind = .equals) :
    scan false (value ++ rest) = (scan false rest).map (⟨kind, value⟩ :: ·) := by
  -- only a separator may be followed by a lexeme of its own kind
  have hother : kind ≠ .comma → kind ≠ .equals → ∀ ls, scan false rest = some ls →
      ∀ m ∈ ls.head?, m.kind ≠ kind := by
    rintro hcomma hequals ls hscan m hm rfl
    obtain ⟨c, hc, hkind⟩ := head?_scan hscan hm
    rcases hnext c hc hkind with h | h
    · exact hcomma h
    · exact hequals h
  cases kind with
  | text =>
    rw [scan_word hl.2]
    refine Option.map_congr fun ls hscan => ?_
    exact foldr_extend hl.1 (hother (by simp) (by simp) ls hscan)
  | blank =>
    rw [scan_blanks hl.2]
    refine Option.map_congr fun ls hscan => ?_
    exact foldr_extend hl.1 (hother (by simp) (by simp) ls hscan)
  | quoted =>
    obtain ⟨s, rfl⟩ := wellFormed_quoted_iff.1 hl
    refine scan_quoted s fun hquote => ?_
    rcases hnext '\'' hquote rfl with h | h
    · cases h
    · cases h
  | comma =>
    rw [show value = [','] from hl]
    rfl
  | equals =>
    rw [show value = ['='] from hl]
    rfl
  | endOfInput => exact absurd hl id

/-! ## A list of lexemes -/

/-- The text that lexemes spell. -/
def spelled (ls : List Lexeme) : Text := ls.flatMap (·.value)

@[simp] theorem spelled_nil : spelled [] = [] := rfl

@[simp] theorem spelled_cons (l : Lexeme) (ls : List Lexeme) :
    spelled (l :: ls) = l.value ++ spelled ls := rfl

@[simp] theorem spelled_append (a b : List Lexeme) : spelled (a ++ b) = spelled a ++ spelled b :=
  List.flatMap_append

/-- The first character that lexemes spell is of the kind of the first. -/
theorem head?_spelled (hform : ∀ l ∈ ls, WellFormed l) (hc : c ∈ (spelled ls).head?) :
    ∃ m ∈ ls.head?, kindOf c = m.kind := by
  cases ls with
  | nil => cases hc
  | cons m others =>
    obtain ⟨d, tail, hvalue, hkind⟩ := (hform m List.mem_cons_self).head
    rw [spelled_cons, hvalue] at hc
    cases hc
    exact ⟨m, rfl, hkind⟩

/-- **Spelled lexemes are read back**, when they are well formed and no two neighbours
could be one. -/
theorem scan_spelled (hform : ∀ l ∈ ls, WellFormed l) (hchain : ls.IsChain MayFollow) :
    scan false (spelled ls) = some ls := by
  induction ls with
  | nil => rfl
  | cons l rest ih =>
    have hrest : ∀ m ∈ rest, WellFormed m := fun m hm => hform m (List.mem_cons_of_mem _ hm)
    have hnext : ∀ c ∈ (spelled rest).head?, kindOf c = l.kind →
        l.kind = .comma ∨ l.kind = .equals := by
      intro c hc hkind
      obtain ⟨m, hm, hmkind⟩ := head?_spelled hrest hc
      exact hchain.rel_head? hm (hkind.symm.trans hmkind)
    rw [spelled_cons, scan_append (hform l List.mem_cons_self) hnext, ih hrest hchain.of_cons]
    rfl

/-! ## Places -/

/-- Lexemes placed one after another from a position on, without an end. -/
def placed : (position : Int) → List Lexeme → List Token
  | _, [] => []
  | position, ⟨kind, value⟩ :: rest =>
    ⟨kind, value, position⟩ :: placed (position + value.length) rest

theorem placed_append (position : Int) (a b : List Lexeme) :
    placed position (a ++ b) = placed position a ++ placed (position + (spelled a).length) b := by
  induction a generalizing position with
  | nil => simp [placed]
  | cons l a ih =>
    rw [List.cons_append, placed, ih, placed, spelled_cons, List.length_append,
      Int.natCast_add, Int.add_assoc]
    rfl

theorem place_append (position : Int) (a b : List Lexeme) :
    place position (a ++ b) = placed position a ++ place (position + (spelled a).length) b := by
  induction a generalizing position with
  | nil => simp [placed]
  | cons l a ih =>
    rw [List.cons_append, place, ih, placed, spelled_cons, List.length_append,
      Int.natCast_add, Int.add_assoc]
    rfl

theorem place_eq_placed (position : Int) (ls : List Lexeme) :
    place position ls = placed position ls ++ [.atEnd (position + (spelled ls).length)] := by
  have h := place_append position ls []
  rw [List.append_nil] at h
  exact h

theorem position_le_of_mem_place {position : Int} {token : Token} (h : token ∈ place position ls) :
    position ≤ token.position := by
  induction ls generalizing position with
  | nil =>
    rw [place, List.mem_singleton] at h
    rw [h]
    exact Int.le_refl position
  | cons l rest ih =>
    rw [place] at h
    rcases List.mem_cons.1 h with rfl | h
    · exact Int.le_refl position
    · have hrest := ih h
      omega

/-- No two tokens of a text are in the same place. -/
theorem nodup_place (h : ∀ l ∈ ls, WellFormed l) (position : Int) :
    (place position ls).Nodup := by
  induction ls generalizing position with
  | nil => exact List.nodup_cons.2 ⟨by simp, List.nodup_nil⟩
  | cons l rest ih =>
    obtain ⟨c, others, hvalue, -⟩ := (h l List.mem_cons_self).head
    rw [place]
    refine List.nodup_cons.2 ⟨?_, ih (fun m hm => h m (List.mem_cons_of_mem _ hm)) _⟩
    intro hin
    have hle := position_le_of_mem_place hin
    simp only [hvalue, List.length_cons] at hle
    omega

end Lexeme

end ProcCall
