import ProcCall.Proofs.Outcomes
import ProcCall.Slot.Grammar

/-!
# Reading phrases

The reader of tokens takes a phrase of the grammar as the slot that it denotes, whatever
follows (`Reads`). The proofs go through a phrase from its end: a closing token, then the
blanks and the output keyword before it, then the value, then the name.

* `Reads.slotEnd`: from the value on.
* `SlotPhrase.reads`: a whole phrase.
* `SlotPhrases.ofTokens_eq_ok`: a list of phrases.
-/

namespace ProcCall

variable {config : Config}

namespace Progress

/-- What has been read once the value of a slot is known, named or not. -/
def ofValue (name : Option Text) (value : Text) (spaced : Bool) : Progress :=
  match name with
  | none => positional value spaced
  | some n => named n value spaced

/-- What has been read once an output keyword has followed the value. -/
def ofOutput (name : Option Text) (value : Text) : Progress :=
  match name with
  | none => positionalOutput value
  | some n => namedOutput n value

/-- What has been read after one more blank. -/
def afterBlank : Progress → Progress
  | positional value _ => positional value true
  | named name value _ => named name value true
  | p => p

variable {p q : Progress} {t : Token}

@[simp] theorem afterBlank_afterBlank (p : Progress) : p.afterBlank.afterBlank = p.afterBlank := by
  cases p <;> rfl

@[simp] theorem afterBlank_ofValue (name : Option Text) (value : Text) (spaced : Bool) :
    (ofValue name value spaced).afterBlank = ofValue name value true := by
  cases name <;> rfl

@[simp] theorem afterBlank_ofOutput (name : Option Text) (value : Text) :
    (ofOutput name value).afterBlank = ofOutput name value := by
  cases name <;> rfl

/-- What follows a value: a blank, an equals sign when there is no name yet, or an output
keyword after a blank. -/
theorem advance?_ofValue_eq {name : Option Text} {value : Text} {spaced : Bool} :
    (ofValue name value spaced).advance? config t =
      if t.kind = .blank then some (ofValue name value true)
      else if t.kind = .equals ∧ name = none then some (expectValue value)
      else if t.kind = .text ∧ spaced ∧ config.isOutputKeyword t.value then
        some (ofOutput name value)
      else none := by
  cases name <;> simp [ofValue, ofOutput, advance?]

theorem advance?_ofOutput_eq {name : Option Text} {value : Text} :
    (ofOutput name value).advance? config t =
      if t.kind = .blank then some (ofOutput name value) else none := by
  cases name <;> rfl

theorem step?_of_advance? (hc : t.closes = false) (h : p.advance? config t = some q) :
    p.step? config t = some (none, q) := by
  simp [step?, hc, h]

theorem step?_blank (ht : t.kind = .blank) : p.step? config t = some (none, p.afterBlank) := by
  have hc : t.closes = false := by simp [Token.closes, ht]
  refine step?_of_advance? hc ?_
  cases p <;> simp [advance?, afterBlank, ht]

theorem step?_close {slot : Slot} (hc : t.closes = true) (h : p.slot? = some slot) :
    p.step? config t = some (some slot, start) := by
  simp [step?, hc, h]

theorem step?_end (ht : t.kind = .endOfInput) : start.step? config t = some (none, start) := by
  simp [step?, slot?, Token.closes, Token.isEnd, ht]

theorem closes_of_isValue (ht : t.isValue = true) : t.closes = false := by
  simp only [Token.isValue, Bool.or_eq_true, decide_eq_true_eq] at ht
  rcases ht with h | h <;> simp [Token.closes, h]

theorem step?_value (ht : t.isValue = true) :
    start.step? config t = some (none, ofValue none t.value false) := by
  have hb : t.kind ≠ .blank := by intro h; simp [Token.isValue, h] at ht
  exact step?_of_advance? (closes_of_isValue ht) (by simp [advance?, hb, ht, ofValue])

theorem step?_namedValue {name : Text} (ht : t.isValue = true) :
    (expectValue name).step? config t = some (none, ofValue (some name) t.value false) := by
  have hb : t.kind ≠ .blank := by intro h; simp [Token.isValue, h] at ht
  exact step?_of_advance? (closes_of_isValue ht) (by simp [advance?, hb, ht, ofValue])

theorem step?_equals {value : Text} {spaced : Bool} (ht : t.kind = .equals) :
    (ofValue none value spaced).step? config t = some (none, expectValue value) := by
  have hc : t.closes = false := by simp [Token.closes, ht]
  exact step?_of_advance? hc (by simp [advance?_ofValue_eq, ht])

theorem step?_keyword {name : Option Text} {value : Text} (ht : t.IsOutputKeyword config) :
    (ofValue name value true).step? config t = some (none, ofOutput name value) := by
  have hc : t.closes = false := by simp [Token.closes, ht.1]
  exact step?_of_advance? hc (by simp [advance?_ofValue_eq, ht.1, ht.2])

end Progress

namespace Slot

/-- A slot with a name or without one. -/
def ofValue (name : Option Text) (value : Text) (isOutput : Bool) : Slot :=
  match name with
  | none => positional value isOutput
  | some n => named n value isOutput

theorem slot?_ofValue {name : Option Text} {value : Text} {spaced : Bool} :
    (Progress.ofValue name value spaced).slot? = some (ofValue name value false) := by
  cases name <;> rfl

theorem slot?_ofOutput {name : Option Text} {value : Text} :
    (Progress.ofOutput name value).slot? = some (ofValue name value true) := by
  cases name <;> rfl

variable {p q : Progress} {t last : Token} {ts rest : List Token} {slot : Slot}

theorem readFrom_cons {closed : Option Slot} (h : p.step? config t = some (closed, q)) :
    readFrom config p last (t :: ts) = (readFrom config q t ts).map (closed.toList ++ ·) := by
  rw [readFrom, h]

theorem readFrom_skip (h : p.step? config t = some (none, q)) :
    readFrom config p last (t :: ts) = readFrom config q t ts := by
  rw [readFrom_cons h]
  cases readFrom config q t ts <;> rfl

/-- At the start of a slot it does not matter which token came before. -/
theorem readFrom_start (last : Token) (ts : List Token) :
    readFrom config .start last ts = ofTokens config ts := by
  cases ts <;> rfl

/-- Some tokens **read as** a slot when they complete what has been read, whatever
follows them. -/
def Reads (config : Config) (p : Progress) (ts : List Token) (slot : Slot) : Prop :=
  ∀ last rest, readFrom config p last (ts ++ rest) = (ofTokens config rest).map (slot :: ·)

theorem Reads.close (hc : t.closes = true) (h : p.slot? = some slot) : Reads config p [t] slot := by
  intro last rest
  rw [List.singleton_append, readFrom_cons (Progress.step?_close hc h), readFrom_start]
  rfl

theorem Reads.step (h : p.step? config t = some (none, q)) (hr : Reads config q ts slot) :
    Reads config p (t :: ts) slot := by
  intro last rest
  rw [List.cons_append, readFrom_skip h]
  exact hr t rest

/-- Blanks may stand before what reads as a slot with and without a blank before it. -/
theorem Reads.blanks {blanks : List Token} (hb : Token.AllBlank blanks)
    (h : Reads config p ts slot) (h' : Reads config p.afterBlank ts slot) :
    Reads config p (blanks ++ ts) slot := by
  induction blanks generalizing p with
  | nil => exact h
  | cons t others ih =>
    have hothers : Token.AllBlank others := fun x hx => hb x (List.mem_cons_of_mem _ hx)
    -- after the first blank, further ones make no difference
    refine .step (Progress.step?_blank (hb t List.mem_cons_self)) (ih hothers h' ?_)
    rw [Progress.afterBlank_afterBlank]
    exact h'

theorem Reads.slotEnd {name : Option Text} {value : Text} {spaced isOutput : Bool}
    (h : SlotEnd config ts isOutput) :
    Reads config (.ofValue name value spaced) ts (ofValue name value isOutput) := by
  cases h with
  | plain blanks last hb hc =>
    have hend : ∀ spaced,
        Reads config (.ofValue name value spaced) [last] (ofValue name value false) :=
      fun spaced => .close hc slot?_ofValue
    refine .blanks hb (hend spaced) ?_
    rw [Progress.afterBlank_ofValue]
    exact hend true
  | output blanks keyword others last hb hne hk ho hc =>
    have hend : Reads config (.ofOutput name value) [last] (ofValue name value true) :=
      .close hc slot?_ofOutput
    have hout : Reads config (.ofOutput name value) (others ++ [last]) (ofValue name value true) :=
      .blanks ho hend (by rw [Progress.afterBlank_ofOutput]; exact hend)
    have hkey : Reads config (.ofValue name value true) (keyword :: (others ++ [last]))
        (ofValue name value true) := .step (Progress.step?_keyword hk) hout
    -- the first blank makes the keyword count
    obtain ⟨first, more, rfl⟩ := List.exists_cons_of_ne_nil hne
    have hmore : Token.AllBlank more := fun x hx => hb x (List.mem_cons_of_mem _ hx)
    refine .step (Progress.step?_blank (hb first List.mem_cons_self)) ?_
    rw [Progress.afterBlank_ofValue]
    exact .blanks hmore hkey (by rw [Progress.afterBlank_ofValue]; exact hkey)

end Slot

open Slot

variable {ts : List Token}

/-- **A phrase reads as its slot.** -/
theorem SlotPhrase.reads {slot : Slot} (h : SlotPhrase config ts slot) :
    Reads config .start ts slot := by
  cases h with
  | positional value rest isOutput hv he => exact .step (Progress.step?_value hv) (.slotEnd he)
  | named name blanks equals others value rest isOutput hn hb heq ho hv he =>
    have hvalue : Reads config (.expectValue name.value) (value :: rest)
        (Slot.ofValue (some name.value) value.value isOutput) :=
      .step (Progress.step?_namedValue hv) (.slotEnd he)
    have hafter : Reads config (.expectValue name.value) (others ++ value :: rest)
        (Slot.ofValue (some name.value) value.value isOutput) := .blanks ho hvalue hvalue
    have hequals : ∀ spaced, Reads config (.ofValue none name.value spaced)
        (equals :: (others ++ value :: rest))
        (Slot.ofValue (some name.value) value.value isOutput) :=
      fun spaced => .step (Progress.step?_equals heq) hafter
    refine .step (Progress.step?_value hn) (.blanks hb (hequals false) ?_)
    rw [Progress.afterBlank_ofValue]
    exact hequals true

/-- **Phrases are read as their slots.** -/
theorem SlotPhrases.ofTokens_eq_ok {slots : List Slot} (h : SlotPhrases config ts slots) :
    Slot.ofTokens config ts = .ok slots := by
  induction h with
  | none => rfl
  | skip t ts slots ht _ ih =>
    have hstep : Progress.start.step? config t = some (Option.none, .start) := by
      rcases ht with ht | ht
      · exact Progress.step?_blank ht
      · exact Progress.step?_end ht
    unfold Slot.ofTokens
    rw [readFrom_skip hstep, readFrom_start, ih]
  | slot phrase ts s slots hp _ ih =>
    unfold Slot.ofTokens
    rw [hp.reads, ih]
    rfl

end ProcCall
