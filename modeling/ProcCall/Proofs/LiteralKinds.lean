import ProcCall.Proofs.Arguments
import ProcCall.Proofs.Casing
import ProcCall.Proofs.Quoting
import Mathlib.Algebra.Ring.Nat

/-!
# The kinds of literal

A value is tried as a string, an integer, a decimal number and `NULL`, in this order. No text has
the form of two kinds (`Literal.Kind.Fits.unique`), so the order says nothing: a quote mark, a
point or a digit that one kind asks for has no place in the others. No capital form of a letter
brings one of them in, so nothing of the kind turns up in `NULL` either.

* `Literal.Kind.Fits`: the form of each kind.
* `Literal.exists_ofText_of_fits`, `Literal.ofText_of_large`, `Literal.ofText_of_not_fits`: what a
  value is when a kind fits, when it is an integer out of range, and when no kind fits.
* `Literal.toNat_leading_zeros`: zeros before a number say nothing.
* `Literal.ofText_cases`: every value is a literal of the kind that fits it, or is refused.
* `Literal.four_kinds`: the four kinds and the bound of the integers.
-/

namespace ProcCall

namespace Literal

variable {raw whole fraction body : Text} {c : Char} {n : Nat}

/-- The kinds of literal. -/
inductive Kind where
  | string
  | integer
  | decimal
  | null
  deriving DecidableEq

/-- The kind of a literal. -/
def kind : Literal → Kind
  | string _ => .string
  | integer _ => .integer
  | decimal _ => .decimal
  | null => .null

/-- Whether a text has the form of a kind: two quote marks at its ends, digits only, digits with a
point before the last of them, or the letters of `NULL` in either case. -/
def Kind.Fits : Kind → Text → Prop
  | string, raw => 2 ≤ raw.length ∧ raw.head? = some '\'' ∧ raw.getLast? = some '\''
  | integer, raw => raw ≠ [] ∧ ∀ c ∈ raw, c.isDigit = true
  | decimal, raw => ∃ whole fraction, raw = whole ++ '.' :: fraction ∧
      (∀ c ∈ whole, c.isDigit = true) ∧ fraction ≠ [] ∧ ∀ c ∈ fraction, c.isDigit = true
  | null, raw => raw.toUpper = "NULL".toList

/-! ## The form of each kind -/

theorem body?_eq_some_iff : body? raw = some body ↔ raw = '\'' :: body ++ ['\''] := by
  constructor
  · intro h
    unfold body? at h
    split at h
    · next rest =>
      split at h
      · next hlast =>
        obtain ⟨init, rfl⟩ := List.getLast?_eq_some_iff.1 hlast
        rw [List.dropLast_concat] at h
        rw [Option.some.inj h]
        rfl
      · cases h
    · cases h
  · rintro rfl
    exact body?_quoted body

theorem exists_body?_iff : (∃ body, body? raw = some body) ↔ Kind.string.Fits raw := by
  constructor
  · rintro ⟨body, h⟩
    rw [body?_eq_some_iff.1 h]
    refine ⟨by simp, rfl, ?_⟩
    exact List.getLast?_concat
  · rintro ⟨hlength, hhead, hlast⟩
    obtain ⟨rest, rfl⟩ := List.head?_eq_some_iff.1 hhead
    have hne : rest ≠ [] := by
      rintro rfl
      simp at hlength
    rw [List.getLast?_cons_of_ne_nil hne] at hlast
    obtain ⟨body, rfl⟩ := List.getLast?_eq_some_iff.1 hlast
    exact ⟨body, body?_quoted body⟩

theorem isNumeral_iff : Digits.isNumeral raw = true ↔ Kind.integer.Fits raw := by
  simp [Digits.isNumeral, Kind.Fits]

theorem decimalParts?_eq_some_iff : decimalParts? raw = some (whole, fraction) ↔
    raw = whole ++ '.' :: fraction ∧ (∀ c ∈ whole, c.isDigit = true) ∧
      Kind.integer.Fits fraction := by
  rw [← isNumeral_iff]
  constructor
  · intro h
    unfold decimalParts? at h
    split at h
    · next rest hdrop =>
      split at h
      · next hnumeral =>
        cases h
        refine ⟨?_, fun c hc => List.mem_takeWhile_imp hc, hnumeral⟩
        rw [← hdrop, List.takeWhile_append_dropWhile]
      · cases h
    · cases h
  · rintro ⟨rfl, hwhole, hfraction⟩
    have hpoint : Char.isDigit '.' = false := rfl
    unfold decimalParts?
    rw [List.dropWhile_append_of_pos hwhole, List.takeWhile_append_of_pos hwhole,
      List.dropWhile_cons_of_neg (by simp [hpoint]), List.takeWhile_cons_of_neg (by simp [hpoint])]
    simp [hfraction]

theorem exists_decimalParts?_iff :
    (∃ parts, decimalParts? raw = some parts) ↔ Kind.decimal.Fits raw := by
  constructor
  · rintro ⟨⟨whole, fraction⟩, h⟩
    exact ⟨whole, fraction, decimalParts?_eq_some_iff.1 h⟩
  · rintro ⟨whole, fraction, h⟩
    exact ⟨(whole, fraction), decimalParts?_eq_some_iff.2 h⟩

instance (k : Kind) (raw : Text) : Decidable (k.Fits raw) :=
  match k with
  | .string =>
    inferInstanceAs (Decidable (2 ≤ raw.length ∧ raw.head? = some '\'' ∧ raw.getLast? = some '\''))
  | .integer => decidable_of_iff (Digits.isNumeral raw = true) isNumeral_iff
  | .decimal => decidable_of_iff ((decimalParts? raw).isSome = true)
    (Option.isSome_iff_exists.trans exists_decimalParts?_iff)
  | .null => inferInstanceAs (Decidable (raw.toUpper = "NULL".toList))

/-! ## No text fits two kinds -/

namespace Kind

variable {k k' : Kind}

/-- A text of digits has nothing else. -/
theorem not_integer_of_mem (hc : c ∈ raw) (hdigit : c.isDigit = false) : ¬ integer.Fits raw := by
  rintro ⟨-, hall⟩
  rw [hall c hc] at hdigit
  cases hdigit

/-- A decimal number has digits and a point only. -/
theorem not_decimal_of_mem (hc : c ∈ raw) (hdigit : c.isDigit = false) (hpoint : c ≠ '.') :
    ¬ decimal.Fits raw := by
  rintro ⟨whole, fraction, rfl, hwhole, -, hfraction⟩
  have hfalse : c.isDigit = true := by
    rcases List.mem_append.1 hc with hc | hc
    · exact hwhole c hc
    · rcases List.mem_cons.1 hc with rfl | hc
      · exact absurd rfl hpoint
      · exact hfraction c hc
  rw [hfalse] at hdigit
  cases hdigit

/-- Upper case leaves every character below the small letters as it is, so none turns into a letter
of `NULL`. -/
theorem not_null_of_mem (hc : c ∈ raw) (hlow : c.toNat < 'a'.toNat) (hne : c ∉ "NULL".toList) :
    ¬ null.Fits raw := by
  -- every run of the mapping starts at a small letter or above
  have hsources : ∀ r ∈ Text.CaseMap.upper.sources, 'a'.toNat ≤ r.first := by decide +kernel
  have himage : Text.CaseMap.upper.image c = [c] := by
    refine Text.CaseMap.image_eq_self fun r hr hcovers => ?_
    have hfirst := hsources r hr
    have hle := hcovers.1
    omega
  intro h
  have hmem : c ∈ raw.toUpper :=
    List.mem_flatMap.2 ⟨c, hc, by rw [himage]; exact List.mem_cons_self⟩
  rw [h] at hmem
  exact hne hmem

theorem not_null_of_integer (h : integer.Fits raw) : ¬ null.Fits raw := by
  obtain ⟨hne, hall⟩ := h
  obtain ⟨c, rest, rfl⟩ := List.exists_cons_of_ne_nil hne
  have hc := hall c List.mem_cons_self
  have hrange : 48 ≤ c.toNat ∧ c.toNat ≤ 57 := by
    simpa [Char.isDigit, UInt32.le_iff_toNat_le] using hc
  refine not_null_of_mem List.mem_cons_self (lt_of_le_of_lt hrange.2 (by decide)) fun hmem => ?_
  have hletters : ∀ d ∈ "NULL".toList, d.isDigit = false := by simp
  rw [hletters c hmem] at hc
  cases hc

/-- **The point** of a decimal number has no place in integers and in `NULL`. -/
theorem Fits.only_decimal (h : decimal.Fits raw) : ¬ integer.Fits raw ∧ ¬ null.Fits raw := by
  have hpoint : '.' ∈ raw := by
    obtain ⟨whole, fraction, rfl, -⟩ := h
    simp
  exact ⟨not_integer_of_mem hpoint rfl, not_null_of_mem hpoint (by decide) (by decide)⟩

/-- **The quote marks** of a string have no place in what is no string. -/
theorem Fits.only_string (h : string.Fits raw) :
    ¬ integer.Fits raw ∧ ¬ decimal.Fits raw ∧ ¬ null.Fits raw := by
  have hquote : '\'' ∈ raw := List.mem_of_mem_head? h.2.1
  exact ⟨not_integer_of_mem hquote rfl, not_decimal_of_mem hquote rfl (by decide),
    not_null_of_mem hquote (by decide) (by decide)⟩

/-- **No text fits two kinds.** -/
theorem Fits.unique (h : k.Fits raw) (h' : k'.Fits raw) : k = k' := by
  cases k with
  | string =>
    cases k' with
    | string => rfl
    | integer => exact absurd h' h.only_string.1
    | decimal => exact absurd h' h.only_string.2.1
    | null => exact absurd h' h.only_string.2.2
  | integer =>
    cases k' with
    | string => exact absurd h h'.only_string.1
    | integer => rfl
    | decimal => exact absurd h h'.only_decimal.1
    | null => exact absurd h' (not_null_of_integer h)
  | decimal =>
    cases k' with
    | string => exact absurd h h'.only_string.2.1
    | integer => exact absurd h' h.only_decimal.1
    | decimal => rfl
    | null => exact absurd h' h.only_decimal.2
  | null =>
    cases k' with
    | string => exact absurd h h'.only_string.2.2
    | integer => exact absurd h (not_null_of_integer h')
    | decimal => exact absurd h h'.only_decimal.2
    | null => rfl

/-- **The order of the kinds says nothing**: tried in any order, the first that fits is the one
that fits. -/
theorem find?_fits_eq_some_iff {order : List Kind} (hall : ∀ k, k ∈ order) :
    order.find? (fun k => decide (k.Fits raw)) = some k ↔ k.Fits raw := by
  constructor
  · intro h
    simpa using List.find?_some h
  · intro h
    cases hfound : order.find? (fun k => decide (k.Fits raw)) with
    | none =>
      have hnone := List.find?_eq_none.1 hfound k (hall k)
      simp [h] at hnone
    | some k' =>
      have hk' : k'.Fits raw := by simpa using List.find?_some hfound
      rw [hk'.unique h]

end Kind

/-! ## The value of each kind -/

theorem body?_eq_none (h : ¬ Kind.string.Fits raw) : body? raw = none := by
  cases hbody : body? raw with
  | none => rfl
  | some body => exact absurd (exists_body?_iff.1 ⟨body, hbody⟩) h

theorem isNumeral_eq_false (h : ¬ Kind.integer.Fits raw) : Digits.isNumeral raw = false :=
  Bool.eq_false_iff.2 fun hnumeral => h (isNumeral_iff.1 hnumeral)

theorem decimalParts?_eq_none (h : ¬ Kind.decimal.Fits raw) : decimalParts? raw = none := by
  cases hparts : decimalParts? raw with
  | none => rfl
  | some parts => exact absurd (exists_decimalParts?_iff.1 ⟨parts, hparts⟩) h

/-- A text of digits, not too many, is an integer unless it is too large. -/
theorem ofText_of_integer (h : Kind.integer.Fits raw) (hshort : raw.length ≤ Digits.readLimit) :
    ofText raw = if maxInteger < Digits.toNat raw then .error (.notLiteral raw)
      else .ok (.integer (Digits.toNat raw)) := by
  have hnumeral := isNumeral_iff.2 h
  unfold ofText
  rw [body?_of_isNumeral hnumeral]
  simp only
  rw [if_pos hnumeral, if_neg (by omega)]

/-- **An integer out of range** is no literal. -/
theorem ofText_of_large (h : Kind.integer.Fits raw) (hshort : raw.length ≤ Digits.readLimit)
    (hlarge : maxInteger < Digits.toNat raw) : ofText raw = .error (.notLiteral raw) := by
  rw [ofText_of_integer h hshort, if_pos hlarge]

/-- **A text that fits a kind** is a literal of that kind, unless it is an integer out of range. -/
theorem exists_ofText_of_fits {k : Kind} (h : k.Fits raw)
    (hshort : k = .integer → raw.length ≤ Digits.readLimit)
    (hrange : ¬ (k = .integer ∧ maxInteger < Digits.toNat raw)) :
    ∃ l, ofText raw = .ok l ∧ l.kind = k := by
  -- the kinds that are tried before do not fit
  have hother : ∀ k', k' ≠ k → ¬ k'.Fits raw := fun k' hne h' => hne (h'.unique h)
  cases k with
  | string =>
    obtain ⟨body, hbody⟩ := exists_body?_iff.2 h
    exact ⟨_, ofText_eq_string_iff.2 ⟨body, hbody, rfl⟩, rfl⟩
  | integer =>
    have hvalue := ofText_of_integer h (hshort rfl)
    rw [if_neg fun hlarge => hrange ⟨rfl, hlarge⟩] at hvalue
    exact ⟨_, hvalue, rfl⟩
  | decimal =>
    obtain ⟨⟨whole, fraction⟩, hparts⟩ := exists_decimalParts?_iff.2 h
    have hbody := body?_eq_none (hother .string (by decide))
    have hnumeral := isNumeral_eq_false (hother .integer (by decide))
    refine ⟨.decimal (.ofDecimal false ⟨Digits.toNat (whole ++ fraction), -fraction.length⟩),
      ?_, rfl⟩
    unfold ofText
    rw [hbody, hnumeral, hparts]
    rfl
  | null =>
    have hbody := body?_eq_none (hother .string (by decide))
    have hnumeral := isNumeral_eq_false (hother .integer (by decide))
    have hparts := decimalParts?_eq_none (hother .decimal (by decide))
    refine ⟨.null, ?_, rfl⟩
    unfold ofText
    rw [hbody, hnumeral, hparts]
    exact if_pos h

/-- **A text that fits no kind** is no literal. -/
theorem ofText_of_not_fits (h : ∀ k : Kind, ¬ k.Fits raw) :
    ofText raw = .error (.notLiteral raw) := by
  unfold ofText
  rw [body?_eq_none (h .string), isNumeral_eq_false (h .integer),
    decimalParts?_eq_none (h .decimal)]
  exact if_neg (h .null)

/-! ## Zeros before a number -/

theorem fits_leading_zeros (zeros n : Nat) :
    Kind.integer.Fits (List.replicate zeros '0' ++ Nat.toDigits 10 n) := by
  refine ⟨by simp, fun c hc => ?_⟩
  rcases List.mem_append.1 hc with hc | hc
  · rw [(List.mem_replicate.1 hc).2]
    rfl
  · exact Plain.isDigit_toDigits hc

/-- **Zeros before a number say nothing.** -/
theorem toNat_leading_zeros (zeros n : Nat) :
    Digits.toNat (List.replicate zeros '0' ++ Nat.toDigits 10 n) = n := by
  induction zeros with
  | zero => exact Plain.toNat_toDigits n
  | succ zeros ih =>
    rw [List.replicate_succ, List.cons_append]
    exact ih

/-! ## All values -/

/-- **Every value** is a literal of the kind that fits it, or is refused because none fits or
because it is an integer out of range. -/
theorem ofText_cases (hshort : Kind.integer.Fits raw → raw.length ≤ Digits.readLimit) :
    (∃ k : Kind, k.Fits raw ∧ ¬ (k = .integer ∧ maxInteger < Digits.toNat raw) ∧
      ∃ l, ofText raw = .ok l ∧ l.kind = k) ∨
    (Kind.integer.Fits raw ∧ maxInteger < Digits.toNat raw ∨ ∀ k : Kind, ¬ k.Fits raw) ∧
      ofText raw = .error (.notLiteral raw) := by
  by_cases hfits : ∃ k : Kind, k.Fits raw
  · obtain ⟨k, hk⟩ := hfits
    have hshort' : k = .integer → raw.length ≤ Digits.readLimit := fun heq => hshort (heq ▸ hk)
    by_cases hlarge : k = .integer ∧ maxInteger < Digits.toNat raw
    · obtain ⟨rfl, hlarge⟩ := hlarge
      exact .inr ⟨.inl ⟨hk, hlarge⟩, ofText_of_large hk (hshort hk) hlarge⟩
    · exact .inl ⟨k, hk, hlarge, exists_ofText_of_fits hk hshort' hlarge⟩
  · have hnone : ∀ k : Kind, ¬ k.Fits raw := fun k hk => hfits ⟨k, hk⟩
    exact .inr ⟨.inr hnone, ofText_of_not_fits hnone⟩

/-- **The four kinds of literal.** At most one kind fits a value, in whatever order they are tried.
A value is a literal of a kind exactly when the kind fits, integers above the bound aside, and any
other value is refused, with the value in the report. The bound is on the number and not on its
digits: every number up to it is read as itself, whatever zeros stand before it, and every greater
one is refused. -/
theorem four_kinds (raw : Text) (hshort : Kind.integer.Fits raw → raw.length ≤ 4300) :
    (∀ k k' : Kind, k.Fits raw → k'.Fits raw → k = k') ∧
      (∀ order : List Kind, (∀ k, k ∈ order) → ∀ k,
        (order.find? (fun k => decide (k.Fits raw)) = some k ↔ k.Fits raw)) ∧
      (∀ k, (∃ l, ofText raw = .ok l ∧ l.kind = k) ↔
        k.Fits raw ∧ ¬ (k = .integer ∧ 2 ^ 63 - 1 < Digits.toNat raw)) ∧
      (∀ e, ofText raw = .error e ↔ e = .notLiteral raw ∧
        (Kind.integer.Fits raw ∧ 2 ^ 63 - 1 < Digits.toNat raw ∨ ∀ k : Kind, ¬ k.Fits raw)) ∧
      ∀ n zeros : Nat, zeros + (Nat.toDigits 10 n).length ≤ 4300 →
        ofText (List.replicate zeros '0' ++ Nat.toDigits 10 n) =
          if n ≤ 2 ^ 63 - 1 then .ok (.integer n)
          else .error (.notLiteral (List.replicate zeros '0' ++ Nat.toDigits 10 n)) := by
  have hbound : maxInteger = 2 ^ 63 - 1 := rfl
  rw [← hbound]
  refine ⟨fun k k' h h' => h.unique h', fun order hall k => Kind.find?_fits_eq_some_iff hall,
    fun k => ⟨?_, ?_⟩, fun e => ⟨?_, ?_⟩, ?_⟩
  · rintro ⟨l, hl, rfl⟩
    rcases ofText_cases hshort with ⟨k, hk, hrange, l', hl', rfl⟩ | ⟨-, herror⟩
    · obtain rfl : l' = l := Except.ok.inj (hl'.symm.trans hl)
      exact ⟨hk, hrange⟩
    · rw [herror] at hl
      cases hl
  · rintro ⟨hk, hrange⟩
    exact exists_ofText_of_fits hk (fun heq => hshort (heq ▸ hk)) hrange
  · intro he
    rcases ofText_cases hshort with ⟨k, -, -, l, hl, -⟩ | ⟨hrefused, herror⟩
    · rw [hl] at he
      cases he
    · rw [herror] at he
      exact ⟨(Except.error.inj he).symm, hrefused⟩
  · rintro ⟨rfl, ⟨hk, hlarge⟩ | hnone⟩
    · exact ofText_of_large hk (hshort hk) hlarge
    · exact ofText_of_not_fits hnone
  · intro n zeros hlength
    have hdigits := fits_leading_zeros zeros n
    have hshort' : (List.replicate zeros '0' ++ Nat.toDigits 10 n).length ≤ Digits.readLimit := by
      rw [List.length_append, List.length_replicate]
      exact hlength
    rw [ofText_of_integer hdigits hshort', toNat_leading_zeros]
    by_cases hn : n ≤ maxInteger
    · rw [if_pos hn, if_neg (by omega)]
    · rw [if_neg hn, if_pos (by omega)]

/-- The greatest integer behind two zeros, and the number after it. -/
theorem four_kinds_of_bound :
    let raw : Text := "009223372036854775807".toList
    (Kind.integer.Fits raw → raw.length ≤ 4300) ∧
      (∃ l, ofText raw = .ok l ∧ l.kind = .integer) ∧ (∀ e, ofText raw ≠ .error e) ∧
      ofText (List.replicate 2 '0' ++ Nat.toDigits 10 9223372036854775807) =
        .ok (.integer 9223372036854775807) ∧
      ofText (List.replicate 2 '0' ++ Nat.toDigits 10 9223372036854775808) =
        .error (.notLiteral "009223372036854775808".toList) := by
  intro raw
  have hshort : Kind.integer.Fits raw → raw.length ≤ 4300 := fun _ => by decide
  obtain ⟨-, -, hvalue, herror, hnumber⟩ := four_kinds raw hshort
  have hfits : Kind.integer.Fits raw := by decide
  have hvalue' := (hvalue .integer).2 ⟨hfits, fun h => absurd h.2 (by decide)⟩
  have hnone : ∀ e, ofText raw ≠ .error e := by
    intro e he
    obtain ⟨l, hl, -⟩ := hvalue'
    rw [hl] at he
    cases he
  exact ⟨hshort, hvalue', hnone, hnumber 9223372036854775807 2 (by decide),
    hnumber 9223372036854775808 2 (by decide)⟩

end Literal

end ProcCall
