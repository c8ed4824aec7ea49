import ProcCall.Proofs.Quoting
import ProcCall.Proofs.Reprinting

/-!
# The format of slots

Slots of words and literals are the **format** in which slots are written: a list of slots is
read back from its text exactly when all of them have the format. A value may spell an output
keyword, since the first word of a slot is its value or its name and never a keyword.

* `Slot.writable_iff_hasFormat`: writable slots are those of the format.
* `Slot.read_back_iff_hasFormat`: a list of slots and its text.
-/

namespace ProcCall

/-- Whether a text is a **word or a literal**. -/
def Lexeme.IsWordOrLiteral (v : Text) : Prop :=
  WellFormed ⟨.text, v⟩ ∨ WellFormed ⟨.quoted, v⟩

theorem Lexeme.wellFormed_ofValue_iff {v : Text} : (ofValue v).WellFormed ↔ IsWordOrLiteral v := by
  constructor
  · intro h
    unfold ofValue at h
    split at h
    · exact .inr h
    · exact .inl h
  · rintro (h | h)
    · rw [ofValue_value h (.inl rfl)]
      exact h
    · rw [ofValue_value h (.inr rfl)]
      exact h

namespace Slot

/-- Whether a slot **has the format** of slots: it is positional without a name or named with
one, and what it is made of are words and literals. -/
inductive HasFormat : Slot → Prop
  | positional (value : Text) (isOutput : Bool) :
      Lexeme.IsWordOrLiteral value → HasFormat (.positional value isOutput)
  | named (name value : Text) (isOutput : Bool) :
      Lexeme.IsWordOrLiteral name → Lexeme.IsWordOrLiteral value →
      HasFormat (.named name value isOutput)

variable {config : Config} {s : Slot} {slots : List Slot} {before after : Text}

/-- Writable slots are those of the format, when `OUTPUT` is a keyword. -/
theorem writable_iff_hasFormat (hkeyword : config.isOutputKeyword "OUTPUT".toList = true) :
    Writable config s ↔ HasFormat s := by
  constructor
  · intro h
    have hvalue := Lexeme.wellFormed_ofValue_iff.1 h.value
    rw [h.eq_ofValue]
    cases hname : s.name with
    | none => exact .positional s.value s.isOutput hvalue
    | some name =>
      have hwell := Lexeme.wellFormed_ofValue_iff.1 (h.name name hname)
      exact .named name s.value s.isOutput hwell hvalue
  · intro h
    cases h with
    | positional value isOutput hvalue =>
      exact ⟨rfl, Lexeme.wellFormed_ofValue_iff.2 hvalue, by rintro _ ⟨⟩, fun _ => hkeyword⟩
    | named name value isOutput hname hvalue =>
      refine ⟨rfl, Lexeme.wellFormed_ofValue_iff.2 hvalue, ?_, fun _ => hkeyword⟩
      rintro _ ⟨⟩
      exact Lexeme.wellFormed_ofValue_iff.2 hname

/-- **Slots are read back from their text exactly when they have the format**, in lists of any
length, with any output flags, and with any blanks around the text, when `OUTPUT` is a keyword. -/
theorem read_back_iff_hasFormat (houtput : "OUTPUT".toList ∈ config.outputKeywords)
    (hb : ∀ c ∈ before, Text.isBlank c = true) (ha : ∀ c ∈ after, Text.isBlank c = true) :
    ofText config (before ++ Text.commaList (slots.map text) ++ after) = .ok slots ↔
      ∀ s ∈ slots, HasFormat s := by
  have hkeyword : config.isOutputKeyword "OUTPUT".toList = true := List.contains_iff_mem.2 houtput
  constructor
  · intro h s hs
    exact (writable_iff_hasFormat hkeyword).1 (writable_of_ofText hkeyword h s hs)
  · intro h
    exact ofText_written before after
      (fun s hs => (writable_iff_hasFormat hkeyword).2 (h s hs)) hb ha

/-- A quoted name, an empty literal, and values that spell keywords. -/
theorem read_back_iff_hasFormat_of_keywords :
    let slots : List Slot := [.named "'a, b'".toList "out".toList true,
      .positional "''".toList false, .positional "OUTPUT".toList true]
    Text.commaList (slots.map text) = "'a, b' = out OUTPUT, '', OUTPUT OUTPUT".toList ∧
      (∀ s ∈ slots, HasFormat s) ∧
      ofText .standard ("\t".toList ++ Text.commaList (slots.map text) ++ "  ".toList) =
        .ok slots := by
  intro slots
  have hword : ∀ v : Text, v ≠ [] → (v.all fun c => decide (Lexeme.IsWordChar c)) = true →
      Lexeme.IsWordOrLiteral v := by
    intro v hne hall
    exact .inl ⟨hne, fun c hc => of_decide_eq_true (List.all_eq_true.1 hall c hc)⟩
  have hliteral : ∀ s : Text, Lexeme.IsWordOrLiteral (Literal.quote s) :=
    fun s => .inr (Lexeme.wellFormed_quoted_iff.2 ⟨s, rfl⟩)
  have hformat : ∀ s ∈ slots, HasFormat s := by
    refine List.forall_mem_cons.2 ⟨?_, List.forall_mem_cons.2 ⟨?_, List.forall_mem_singleton.2 ?_⟩⟩
    · exact .named _ _ true (hliteral "a, b".toList) (hword _ (by decide) (by decide))
    · exact .positional _ false (hliteral [])
    · exact .positional _ true (hword _ (by decide) (by decide))
  have houtput : "OUTPUT".toList ∈ Config.standard.outputKeywords := by decide
  have hb : ∀ c ∈ "\t".toList, Text.isBlank c = true := List.all_eq_true.1 rfl
  have ha : ∀ c ∈ "  ".toList, Text.isBlank c = true := List.all_eq_true.1 rfl
  exact ⟨rfl, hformat, (read_back_iff_hasFormat houtput hb ha).2 hformat⟩

end Slot

end ProcCall
