import ProcCall.Proofs.Rendering
import ProcCall.Proofs.Runs

/-!
# Values as arguments

What a caller passes: strings, integers and no value at all, each by its place or under
the name of a parameter. Written out, every such argument is a writable slot, and its value
is read back as it was.

* `Plain`: the values, with their texts and literals.
* `Plain.ofText_text`: a value is evaluated to itself.
* `Argument`: a value with the parameter that it names.
* `Argument.writable`: arguments are writable slots.
-/

namespace ProcCall

/-- A value that a caller passes. An integer is one that a literal may stand for. -/
inductive Plain where
  | string (value : Text)
  | integer (value : Nat) (bounded : value ≤ Literal.maxInteger)
  | null

namespace Plain

/-- The value as it is evaluated. -/
def literal : Plain → Literal
  | string value => .string value
  | integer value _ => .integer value
  | null => .null

/-- The value as it is written: a string in quotes, an integer in decimal digits. -/
def text : Plain → Text
  | string value => Literal.quote value
  | integer value _ => Nat.toDigits 10 value
  | null => "NULL".toList

theorem isDigit_toDigits {n : Nat} {c : Char} (h : c ∈ Nat.toDigits 10 n) : c.isDigit = true :=
  Nat.isDigit_of_mem_toDigits (by decide) (by decide) h

theorem isNumeral_toDigits (n : Nat) : Digits.isNumeral (Nat.toDigits 10 n) = true := by
  have hne : (Nat.toDigits 10 n).isEmpty = false := by simp
  have hall : (Nat.toDigits 10 n).all Char.isDigit = true :=
    List.all_eq_true.2 fun c hc => isDigit_toDigits hc
  simp [Digits.isNumeral, hne, hall]

theorem toNat_toDigits (n : Nat) : Digits.toNat (Nat.toDigits 10 n) = n := by
  have hread := @Nat.ofDigitChars_ten_toDigits n
  rw [Nat.ofDigitChars_eq_foldl] at hread
  exact hread

/-- An integer in range has few digits. -/
theorem length_toDigits {n : Nat} (h : n ≤ Literal.maxInteger) :
    (Nat.toDigits 10 n).length ≤ Digits.readLimit := by
  have hlt : n < 10 ^ 19 := lt_of_le_of_lt h (by decide)
  have hshort := (Nat.length_toDigits_le_iff (by decide) (by decide)).2 hlt
  exact le_trans hshort (by decide)

/-- **A value is evaluated to itself.** -/
theorem ofText_text (v : Plain) : Literal.ofText v.text = .ok v.literal := by
  cases v with
  | string value => exact Literal.ofText_quote value
  | integer n h =>
    have hlong : ¬ Digits.readLimit < (Nat.toDigits 10 n).length := by
      have hlen := length_toDigits h
      omega
    have hbig : ¬ Literal.maxInteger < Digits.toNat (Nat.toDigits 10 n) := by
      rw [toNat_toDigits]; omega
    unfold Literal.ofText text literal
    rw [Literal.body?_of_isNumeral (isNumeral_toDigits n)]
    simp only
    rw [if_pos (isNumeral_toDigits n), if_neg hlong, if_neg hbig, toNat_toDigits]
  | null => rfl

theorem wellFormed_text (v : Plain) : (Lexeme.ofValue v.text).WellFormed := by
  cases v with
  | string value =>
    exact Lexeme.wellFormed_quoted_iff.2 ⟨value, rfl⟩
  | integer n h =>
    have hword : ∀ c ∈ Nat.toDigits 10 n, Lexeme.IsWordChar c :=
      fun c hc => Lexeme.isWordChar_of_isDigit (isDigit_toDigits hc)
    exact Lexeme.wellFormed_ofValue Nat.toDigits_ne_nil hword
  | null =>
    have hword : ∀ c ∈ "NULL".toList, Lexeme.IsWordChar c := List.all_iff_forall_prop.1 rfl
    exact Lexeme.wellFormed_ofValue (by decide) hword

/-- No numeral is a variable. -/
theorem isVariable_of_isNumeral {v : Text} (h : Digits.isNumeral v = true) :
    Config.standard.isVariable v = false := by
  obtain ⟨hne, hall⟩ := Bool.and_eq_true_iff.1 h
  obtain ⟨c, rest, rfl⟩ := List.exists_cons_of_ne_nil (show v ≠ [] by simpa using hne)
  have hc : c.isDigit = true := List.all_eq_true.1 hall c List.mem_cons_self
  have hne : '@' ≠ c := by rintro rfl; cases hc
  simp [Config.isVariable, Config.standard, Config.ofOptions, Text.startsWithAny, List.isPrefixOf,
    hne]

/-- No written value is a variable. -/
theorem isVariable_text (v : Plain) : Config.standard.isVariable v.text = false := by
  cases v with
  | string value => rfl
  | integer n h => exact isVariable_of_isNumeral (isNumeral_toDigits n)
  | null => rfl

end Plain

/-- An argument: a value with the parameter whose name it is given under, if any. -/
structure Argument where
  target : Option Param
  value : Plain

namespace Argument

/-- The argument as it is written. -/
def text (a : Argument) : Text :=
  match a.target with
  | none => a.value.text
  | some p => p.name ++ " = ".toList ++ a.value.text

/-- The slot that the argument is read as. -/
def slot (a : Argument) : Slot := .ofValue (a.target.map (·.name)) a.value.text false

/-- Whether a name can stand in an argument: a word without quote marks, commas and equals
signs. -/
def IsName (name : Text) : Prop := name ≠ [] ∧ ∀ c ∈ name, Lexeme.IsWordChar c

variable {a : Argument}

theorem text_slot (a : Argument) : a.slot.text = a.text := by
  obtain ⟨target, value⟩ := a
  cases target <;>
    simp [slot, text, Slot.ofValue, Slot.text, Slot.positional, Slot.named, Slot.isNamed,
      Slot.nameText]

theorem isNamed_slot (a : Argument) : a.slot.isNamed = a.target.isSome := by
  obtain ⟨target, value⟩ := a
  cases target <;> rfl

theorem value_slot (a : Argument) : a.slot.value = a.value.text := by
  obtain ⟨target, value⟩ := a
  cases target <;> rfl

/-- **Arguments are writable slots** if their names can be read. -/
theorem writable (config : Config) (h : ∀ p ∈ a.target, IsName p.name) :
    Slot.Writable config a.slot := by
  obtain ⟨target, value⟩ := a
  cases target with
  | none =>
    exact ⟨rfl, value.wellFormed_text, by simp [slot, Slot.ofValue, Slot.positional],
      by simp [slot, Slot.ofValue, Slot.positional]⟩
  | some p =>
    have hp := h p rfl
    refine ⟨rfl, value.wellFormed_text, ?_, by simp [slot, Slot.ofValue, Slot.named]⟩
    intro n hn
    cases hn
    exact Lexeme.wellFormed_ofValue hp.1 hp.2

end Argument

end ProcCall
