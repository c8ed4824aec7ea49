import ProcCall.Proofs.Machine

/-!
# Reading tokens is lossless

The lexemes of a text spell it, each has the form of its kind, and no two neighbours could be
one lexeme (`Lexeme.Spells`). No other lexemes spell the text in this way, so the lexemes of
a text and the text itself determine each other.

* `Lexeme.Spells.extend`: a character put before lexemes.
* `Lexeme.Spells.append`: texts one after another.
* `Lexeme.scan_spellsFrom`: what a scan gives, inside a literal and outside.
* `Lexeme.ofText?_eq_some_iff`: the lexemes of a text.
* `Token.canonical_iff_place`: canonical tokens are such lexemes, each in its place.
* `Token.ofText_eq_ok_iff_canonical`: the tokens of a text are the canonical ones.
-/

namespace ProcCall

namespace Lexeme

variable {c : Char} {t a b : Text} {l : Lexeme} {ls : List Lexeme} {kind : TokenKind}

/-- Whether lexemes **spell** a text: they are well formed and no two neighbours could be
one. -/
structure Spells (t : Text) (ls : List Lexeme) : Prop where
  text : spelled ls = t
  form : ∀ l ∈ ls, WellFormed l
  chain : ls.IsChain MayFollow

theorem spells_nil : Spells [] [] := ⟨rfl, by simp, .nil⟩

/-- Words and blanks stay what they are when they get longer. -/
theorem WellFormed.cons {value : Text} (hk : kind = .text ∨ kind = .blank)
    (hc : WellFormed ⟨kind, [c]⟩) (h : WellFormed ⟨kind, value⟩) :
    WellFormed ⟨kind, c :: value⟩ := by
  rcases hk with rfl | rfl
  · refine ⟨by simp, List.forall_mem_cons.2 ⟨hc.2 c (by simp), h.2⟩⟩
  · refine ⟨by simp, List.forall_mem_cons.2 ⟨hc.2 c (by simp), h.2⟩⟩

/-- A lexeme may be put before others that do not start with one of its kind. -/
theorem Spells.cons (hl : WellFormed l) (h : Spells t ls)
    (hnext : ∀ m ∈ ls.head?, MayFollow l m) : Spells (l.value ++ t) (l :: ls) where
  text := by rw [spelled_cons, h.text]
  form := List.forall_mem_cons.2 ⟨hl, h.form⟩
  chain := h.chain.cons hnext

/-- **A character of a word or of blanks put before lexemes.** -/
theorem Spells.extend (hk : kind = .text ∨ kind = .blank) (hc : WellFormed ⟨kind, [c]⟩)
    (h : Spells t ls) : Spells (c :: t) (extend kind c ls) := by
  cases ls with
  | nil => exact h.cons hc (by simp)
  | cons m rest =>
    obtain ⟨k, value⟩ := m
    by_cases heq : k = kind
    · -- the first lexeme gets longer
      subst heq
      obtain ⟨hm, hrest⟩ := List.forall_mem_cons.1 h.form
      have hlonger : Spells (c :: t) (⟨k, c :: value⟩ :: rest) :=
        ⟨by rw [← h.text]; rfl, List.forall_mem_cons.2 ⟨.cons hk hc hm, hrest⟩,
          h.chain.tail.cons fun x hx => h.chain.rel_head? hx⟩
      simpa [Lexeme.extend] using hlonger
    · have hnew : Spells (c :: t) (⟨kind, [c]⟩ :: ⟨k, value⟩ :: rest) := by
        refine h.cons hc fun x hx heq' => ?_
        cases hx
        exact absurd heq'.symm heq
      simpa [Lexeme.extend, heq] using hnew

/-- Whether lexemes spell a text that begins inside a literal or outside. Inside, the first
lexeme is the rest of the literal, and the others spell what follows it. -/
def SpellsFrom : (inside : Bool) → Text → List Lexeme → Prop
  | false, t, ls => Spells t ls
  | true, t, ls => ∃ body after rest, t = body ++ '\'' :: after ∧ EvenQuotes body ∧
      ls = ⟨.quoted, body ++ ['\'']⟩ :: rest ∧ Spells after rest ∧
      ∀ m ∈ rest.head?, m.kind ≠ .quoted

/-- The character after a literal is no quote mark, so no literal follows. -/
theorem Spells.head_ne_quoted (h : Spells t ls) (ht : t.head? ≠ some '\'') :
    ∀ m ∈ ls.head?, m.kind ≠ .quoted := by
  intro m hm hkind
  cases ls with
  | nil => cases hm
  | cons l rest =>
    cases hm
    obtain ⟨c, others, hvalue, hc⟩ := (h.form _ List.mem_cons_self).head
    rw [hkind] at hc
    rw [← h.text, spelled_cons, hvalue, kindOf_eq_quoted_iff.1 hc] at ht
    exact ht rfl

/-- A text that does not end with a quote mark does not end with a literal. -/
theorem Spells.last_ne_quoted (h : Spells t ls) (ht : t.getLast? ≠ some '\'') :
    ∀ m ∈ ls.getLast?, m.kind ≠ .quoted := by
  intro m hm hkind
  obtain ⟨init, rfl⟩ := List.getLast?_eq_some_iff.1 hm
  obtain ⟨kind, value⟩ := m
  obtain rfl : kind = .quoted := hkind
  obtain ⟨body, hvalue, -⟩ := h.form ⟨.quoted, value⟩ (by simp)
  obtain rfl : value = '\'' :: body ++ ['\''] := hvalue
  apply ht
  rw [← h.text, spelled_append, spelled_cons, spelled_nil, List.append_nil, ← List.append_assoc]
  exact List.getLast?_concat

/-- Texts are spelled one after another when the lexemes at the seam could not be one. -/
theorem Spells.append {ls' : List Lexeme} (h : Spells a ls) (h' : Spells b ls')
    (hseam : ∀ x ∈ ls.getLast?, ∀ y ∈ ls'.head?, MayFollow x y) : Spells (a ++ b) (ls ++ ls') where
  text := by rw [spelled_append, h.text, h'.text]
  form := by
    intro l hl
    rcases List.mem_append.1 hl with hl | hl
    · exact h.form l hl
    · exact h'.form l hl
  chain := List.isChain_append.2 ⟨h.chain, h'.chain, hseam⟩

/-- **What a scan gives spells the text**, from inside a literal and from outside. -/
theorem scan_spellsFrom {inside : Bool} (h : scan inside t = some ls) : SpellsFrom inside t ls := by
  fun_induction scan inside t generalizing ls with
  | case1 => cases h; exact spells_nil
  | case2 => cases h
  | case3 rest ih =>
    obtain ⟨ls', hscan, rfl⟩ := Option.map_eq_some_iff.1 h
    obtain ⟨body, after, others, rfl, heven, rfl, hafter, hnext⟩ := ih hscan
    exact ⟨'\'' :: '\'' :: body, after, others, rfl, evenQuotes_pair.2 heven, rfl, hafter, hnext⟩
  | case4 rest hsingle ih =>
    obtain ⟨ls', hscan, rfl⟩ := Option.map_eq_some_iff.1 h
    have hrest : Spells rest ls' := ih hscan
    have hhead : rest.head? ≠ some '\'' := by
      intro hquote
      obtain ⟨others, rfl⟩ := List.head?_eq_some_iff.1 hquote
      exact hsingle others rfl
    exact ⟨[], rest, ls', rfl, evenQuotes_nil, rfl, hrest, hrest.head_ne_quoted hhead⟩
  | case5 c rest _ hc ih =>
    obtain ⟨ls', hscan, rfl⟩ := Option.map_eq_some_iff.1 h
    obtain ⟨body, after, others, rfl, heven, rfl, hafter, hnext⟩ := ih hscan
    exact ⟨c :: body, after, others, rfl, (evenQuotes_cons_of_ne hc).2 heven, rfl, hafter, hnext⟩
  | case6 c rest hkind ih =>
    -- the literal begins here
    obtain ⟨ls', hscan, rfl⟩ := Option.map_eq_some_iff.1 h
    obtain ⟨body, after, others, rfl, heven, rfl, hafter, hnext⟩ := ih hscan
    obtain rfl := kindOf_eq_quoted_iff.1 hkind
    have hform : WellFormed ⟨.quoted, '\'' :: body ++ ['\'']⟩ := ⟨body, rfl, heven⟩
    have hspells := hafter.cons hform fun m hm heq => absurd heq.symm (hnext m hm)
    simpa [SpellsFrom, extend] using hspells
  | case7 c rest hkind ih =>
    obtain ⟨ls', hscan, rfl⟩ := Option.map_eq_some_iff.1 h
    have hform := wellFormed_singleton (c := c) (by simp [hkind])
    rw [hkind] at hform
    exact Spells.extend (.inl rfl) hform (ih hscan)
  | case8 c rest hkind ih =>
    obtain ⟨ls', hscan, rfl⟩ := Option.map_eq_some_iff.1 h
    have hform := wellFormed_singleton (c := c) (by simp [hkind])
    rw [hkind] at hform
    exact Spells.extend (.inr rfl) hform (ih hscan)
  | case9 c rest hquoted htext hblank ih =>
    obtain ⟨ls', hscan, rfl⟩ := Option.map_eq_some_iff.1 h
    have hform := wellFormed_singleton hquoted
    have hseparator : kindOf c = .comma ∨ kindOf c = .equals := by
      cases hkind : kindOf c with
      | text => exact absurd hkind htext
      | quoted => exact absurd hkind hquoted
      | blank => exact absurd hkind hblank
      | comma => exact .inl rfl
      | equals => exact .inr rfl
      | endOfInput => rw [hkind] at hform; exact absurd hform id
    exact Spells.cons hform (ih hscan) fun m _ _ => hseparator

/-- **The lexemes of a text** are the ones that spell it. -/
theorem ofText?_eq_some_iff : ofText? t = some ls ↔ Spells t ls := by
  constructor
  · exact fun h => scan_spellsFrom h
  · rintro ⟨rfl, hform, hchain⟩
    exact scan_spelled hform hchain

/-! ## Lexemes in their places -/

theorem map_lexeme_placed (position : Int) (ls : List Lexeme) :
    (placed position ls).map Token.lexeme = ls := by
  induction ls generalizing position with
  | nil => rfl
  | cons l rest ih => rw [placed, List.map_cons, ih]; rfl

theorem spelled_map_lexeme (body : List Token) :
    spelled (body.map Token.lexeme) = Token.spelled body := by
  unfold spelled Token.spelled
  rw [List.flatMap_map]
  rfl

/-- Placed lexemes keep their form. -/
theorem wellFormed_placed {position : Int} {token : Token} (h : ∀ l ∈ ls, WellFormed l)
    (ht : token ∈ placed position ls) : token.lexeme.WellFormed := by
  have hmem := List.mem_map_of_mem (f := Token.lexeme) ht
  rw [map_lexeme_placed] at hmem
  exact h _ hmem

/-- Placed lexemes spell the same text. -/
theorem spelled_placed (position : Int) (ls : List Lexeme) :
    Token.spelled (placed position ls) = spelled ls := by
  rw [← spelled_map_lexeme, map_lexeme_placed]

/-- Tokens are placed one after another when each stands where the ones before it end. -/
theorem eq_placed_iff {body : List Token} {position : Int} :
    body = placed position (body.map Token.lexeme) ↔
      ∀ i (h : i < body.length),
        body[i].position = position + (Token.spelled (body.take i)).length := by
  induction body generalizing position with
  | nil => simp [placed]
  | cons token rest ih =>
    have hplaced : token :: rest = placed position ((token :: rest).map Token.lexeme) ↔
        token.position = position ∧
          rest = placed (position + token.value.length) (rest.map Token.lexeme) := by
      obtain ⟨kind, value, start⟩ := token
      simp [placed, Token.lexeme]
    rw [hplaced, ih]
    constructor
    · rintro ⟨hfirst, hrest⟩ i hi
      cases i with
      | zero => simpa [Token.spelled] using hfirst
      | succ i =>
        have hi' := hrest i (by simpa using hi)
        simp only [List.getElem_cons_succ, List.take_succ_cons, Token.spelled, List.flatMap_cons,
          List.length_append, Int.natCast_add] at hi' ⊢
        omega
    · intro h
      have hfirst : token.position = position + 0 := h 0 (by simp)
      refine ⟨by omega, fun i hi => ?_⟩
      have hi' := h (i + 1) (by simpa using hi)
      simp only [List.getElem_cons_succ, List.take_succ_cons, Token.spelled, List.flatMap_cons,
        List.length_append, Int.natCast_add] at hi' ⊢
      omega

end Lexeme

namespace Token

variable {t : Text} {ts : List Token}

open Lexeme in
/-- **Canonical tokens** are lexemes that spell the text, each in its place. -/
theorem canonical_iff_place : Canonical t ts ↔ ∃ ls, Spells t ls ∧ ts = place 0 ls := by
  constructor
  · rintro ⟨body, h, rfl⟩
    have htext : Lexeme.spelled (body.map lexeme) = t := by rw [spelled_map_lexeme, h.spelled]
    refine ⟨body.map lexeme, ⟨htext, List.forall_mem_map.2 h.wellFormed, ?_⟩, ?_⟩
    · rw [List.isChain_map, List.isChain_iff_getElem]
      exact h.separate
    · have hplaced := eq_placed_iff.2 fun i hi => by rw [h.placed i hi, Int.zero_add]
      rw [place_eq_placed, ← hplaced, htext, Int.zero_add]
  · rintro ⟨ls, h, rfl⟩
    have hmap := map_lexeme_placed 0 ls
    have hplaced := eq_placed_iff.1 (congrArg (placed 0) hmap.symm)
    refine ⟨placed 0 ls, ⟨?_, ?_, ?_, ?_⟩, ?_⟩
    · intro token htoken
      exact h.form _ (by rw [← hmap]; exact List.mem_map_of_mem htoken)
    · rw [← spelled_map_lexeme, hmap, h.text]
    · intro i hi
      rw [hplaced i hi, Int.zero_add]
    · have hchain := h.chain
      rw [← hmap, List.isChain_map, List.isChain_iff_getElem] at hchain
      exact hchain
    · rw [place_eq_placed, h.text, Int.zero_add]

theorem ofText_eq_ok_iff :
    ofText t = .ok ts ↔ ∃ ls, Lexeme.Spells t ls ∧ ts = Lexeme.place 0 ls := by
  rw [ofText_eq]
  cases h : Lexeme.ofText? t with
  | none =>
    simp only [reduceCtorEq, false_iff, not_exists, not_and]
    intro ls hls
    rw [Lexeme.ofText?_eq_some_iff.2 hls] at h
    cases h
  | some ls =>
    have hls := Lexeme.ofText?_eq_some_iff.1 h
    constructor
    · rintro ⟨⟩
      exact ⟨ls, hls, rfl⟩
    · rintro ⟨ls', hls', rfl⟩
      rw [Lexeme.ofText?_eq_some_iff.2 hls'] at h
      cases h; rfl

/-- A token of a text has the form of its kind or is the end of the input. -/
theorem wellFormed_or_atEnd {token : Token} (h : ofText t = .ok ts) (ht : token ∈ ts) :
    token.lexeme.WellFormed ∨ token = .atEnd t.length := by
  obtain ⟨ls, hls, rfl⟩ := ofText_eq_ok_iff.1 h
  rw [Lexeme.place_eq_placed, hls.text, Int.zero_add] at ht
  rcases List.mem_append.1 ht with ht | ht
  · exact .inl (Lexeme.wellFormed_placed hls.form ht)
  · exact .inr (List.mem_singleton.1 ht)

/-- **The tokens of a text are the canonical ones.** They spell the text, each has the form
of its kind and stands where the ones before it end, no two neighbours could be one, and the
end of the input comes last. So nothing is lost, nothing is said twice, and canonical tokens
are read back from the text that they spell. -/
theorem ofText_eq_ok_iff_canonical (t : Text) (ts : List Token) :
    ofText t = .ok ts ↔ Canonical t ts := by
  rw [ofText_eq_ok_iff, canonical_iff_place]

end Token

end ProcCall
