import ProcCall.Proofs.Faithful
import ProcCall.Proofs.Stages

/-!
# Which outputs come back

A prepared call remembers one parameter under each variable, the one bound last in binding
order, and only then leaves out those that no value flows back from. So an argument's
output comes back under its variable unless a later argument with the same variable went to
an input parameter.

* `get?_byVariable`: what is remembered under a variable.
* `get?_outputParams_eq`, `get?_outputParams`: the table of outputs, read key by key.
* `output_kept_iff`: when the output of an argument is kept, and its value read back.
-/

namespace ProcCall

namespace Binding

variable {config : Config} {declared : List Param} {slots : List Slot} {b : Binding}

/-- The parameter of the last argument, in binding order, whose value is the given one. -/
def lastBound? (b : Binding) (slots : List Slot) (value : Text) : Option Param :=
  ((orderedPairs slots b.params).filter (·.1.value = value)).getLast?.map (·.2)

theorem lookup_filterMap_variableRecord? {v : Text} (hv : config.isVariable v = true)
    (pairs : List (Slot × Param)) : (pairs.filterMap (variableRecord? config)).lookup v =
      (pairs.filter (·.1.value = v)).head?.map (·.2) := by
  induction pairs with
  | nil => rfl
  | cons pair rest ih =>
    by_cases h : pair.1.value = v
    · have hrec : variableRecord? config pair = some (v, pair.2) := by simp [variableRecord?, h, hv]
      rw [List.filterMap_cons_some hrec, List.filter_cons_of_pos (by simpa using h)]
      simp
    · rw [List.filter_cons_of_neg (by simpa using h), ← ih, List.filterMap_cons]
      cases hvar : config.isVariable pair.1.value with
      | false => simp [variableRecord?, hvar]
      | true =>
        simp only [variableRecord?, hvar, if_true]
        rw [List.lookup_cons, beq_false_of_ne (Ne.symm h)]

/-- **The last argument with a variable counts**, in binding order. -/
theorem get?_byVariable (h : ofSlots config declared slots = .ok b) {v : Text}
    (hv : config.isVariable v = true) : b.byVariable.get? v = b.lastBound? slots v := by
  have hb := (ofSlots_eq_ok_iff.1 h).2.byVariable
  rw [hb, Table.get?_ofPairs, ← List.filterMap_reverse, lookup_filterMap_variableRecord? hv,
    List.filter_reverse, List.head?_reverse]
  rfl

theorem nodup_byVariable (h : ofSlots config declared slots = .ok b) : b.byVariable.keys.Nodup := by
  rw [(ofSlots_eq_ok_iff.1 h).2.byVariable]
  exact Table.nodup_ofPairs _

theorem mem_orderedPairs {params : List Param} {pair : Slot × Param} :
    pair ∈ orderedPairs slots params ↔ pair ∈ slots.zip params :=
  (List.filter_append_perm _ _).mem_iff

theorem lastBound?_isSome {pair : Slot × Param} (h : pair ∈ slots.zip b.params) :
    ∃ q, b.lastBound? slots pair.1.value = some q := by
  have hin : pair ∈ (orderedPairs slots b.params).filter (·.1.value = pair.1.value) :=
    List.mem_filter.2 ⟨mem_orderedPairs.2 h, by simp⟩
  obtain ⟨last, hlast⟩ := Option.isSome_iff_exists.1
    (List.getLast?_isSome.2 (List.ne_nil_of_mem hin))
  exact ⟨last.2, by unfold lastBound?; rw [hlast]; rfl⟩

theorem lastBound?_mem {v : Text} {q : Param} (h : b.lastBound? slots v = some q) :
    q ∈ b.params := by
  obtain ⟨⟨slot, _⟩, hlast, rfl⟩ := Option.map_eq_some_iff.1 h
  have hin := (List.mem_filter.1 (List.mem_of_getLast? hlast)).1
  exact (List.of_mem_zip (mem_orderedPairs.1 hin)).2

end Binding

namespace Prepared

open Binding

variable {config : Config} {declared : List Param} {t v : Text} {p : Prepared}

/-- The parameter of the return value, when it goes to the given variable. -/
def returnTo? (p : Prepared) (v : Text) : Option Param :=
  if p.call.returnVariable = some v then p.returnParam? else none

/-- Whether a variable is among the outputs, under a parameter that a value flows back from. -/
def Yields (p : Prepared) (v : Text) : Prop :=
  ∃ q, p.outputParams.get? v = some q ∧ q.isOutput = true

/-- Whether a variable ends at an **input**: the last argument that passes it, in binding
order, went to an input parameter, and the return value does not go to the variable. -/
def EndsAtInput (p : Prepared) (v : Text) : Prop :=
  (∃ q, p.binding.lastBound? p.call.slots v = some q ∧ q.isOutput = false) ∧ p.returnTo? v = none

theorem returnVariable_ne_nil (h : ofText config declared t = .ok p) :
    p.call.returnVariable ≠ some [] := by
  obtain ⟨call, b, hc, -, rfl⟩ := ofText_eq_ok_iff.1 h
  obtain ⟨head, slots, hh, -, rfl⟩ := Call.ofText_eq_ok_iff.1 hc
  exact CallHead.returnVariable_ne_nil hh

theorem bind_of_ofText (h : ofText config declared t = .ok p) :
    ofSlots config declared p.call.slots = .ok p.binding ∧ p.declared = declared := by
  obtain ⟨call, b, -, hb, rfl⟩ := ofText_eq_ok_iff.1 h
  exact ⟨hb, rfl⟩

theorem outputParams_eq (h : ofText config declared t = .ok p) : p.outputParams =
    match p.call.returnVariable, p.returnParam? with
    | some v, some q => Table.put v q (p.binding.byVariable.filter (·.2.isOutput))
    | _, _ => p.binding.byVariable.filter (·.2.isOutput) := by
  unfold outputParams
  match hr : p.call.returnVariable with
  | none => rfl
  | some [] => exact absurd hr (returnVariable_ne_nil h)
  | some (c :: rest) => cases p.returnParam? <;> rfl

theorem nodup_outputParams (h : ofText config declared t = .ok p) : p.outputParams.keys.Nodup := by
  have hfilter : Table.keys (p.binding.byVariable.filter (·.2.isOutput)) |>.Nodup :=
    (nodup_byVariable (bind_of_ofText h).1).sublist (List.filter_sublist.map _)
  rw [outputParams_eq h]
  split
  · exact Table.nodup_put hfilter _ _
  · exact hfilter

/-- **The table of outputs**, read under a key: the return value comes first, then the
parameter remembered under a variable if a value flows back from it. -/
theorem get?_outputParams_eq (h : ofText config declared t = .ok p) (v : Text) :
    p.outputParams.get? v =
      (p.returnTo? v).or ((p.binding.byVariable.get? v).filter Param.isOutput) := by
  have hbound := Table.get?_filter Param.isOutput (nodup_byVariable (bind_of_ofText h).1) v
  rw [outputParams_eq h, ← hbound]
  unfold returnTo?
  cases hr : p.call.returnVariable with
  | none => simp
  | some w =>
    cases p.returnParam? with
    | none => simp
    | some q =>
      -- the return value hides what is bound to its variable
      simp only [Table.get?_put, Option.some.injEq]
      by_cases hw : w = v
      · rw [if_pos hw.symm, if_pos hw]; rfl
      · rw [if_neg (Ne.symm hw), if_neg hw]; rfl

/-- Under a variable, that parameter is the last one bound to it. -/
theorem get?_outputParams (h : ofText config declared t = .ok p) (hv : config.isVariable v = true) :
    p.outputParams.get? v =
      (p.returnTo? v).or ((p.binding.lastBound? p.call.slots v).filter Param.isOutput) := by
  rw [get?_outputParams_eq h, get?_byVariable (bind_of_ofText h).1 hv]

theorem returnTo?_isOutput {q : Param} (h : p.returnTo? v = some q) :
    q.isOutput = true ∧ q ∈ p.declared := by
  unfold returnTo? at h
  split at h
  · have hret : q.isReturnValue = true := List.find?_some h
    refine ⟨?_, List.mem_of_find?_eq_some h⟩
    simp only [Param.isReturnValue, decide_eq_true_eq] at hret
    simp [Param.isOutput, hret]
  · cases h

/-- What stands in the table of outputs is a declared parameter that a value flows back
from. -/
theorem get?_outputParams_spec (h : ofText config declared t = .ok p)
    (hv : config.isVariable v = true) {q : Param} (hq : p.outputParams.get? v = some q) :
    q.isOutput = true ∧ q ∈ declared := by
  obtain ⟨hbind, hdecl⟩ := bind_of_ofText h
  rw [get?_outputParams h hv, Option.or_eq_some_iff] at hq
  rcases hq with hr | ⟨-, hl⟩
  · rw [← hdecl]; exact returnTo?_isOutput hr
  · obtain ⟨hl, hout⟩ := Option.filter_eq_some_iff.1 hl
    exact ⟨hout, (wellBound_of_ofSlots hbind).known q (lastBound?_mem hl)⟩

theorem yields_iff_isSome (h : ofText config declared t = .ok p) (hv : config.isVariable v = true) :
    p.Yields v ↔ (p.outputParams.get? v).isSome = true := by
  rw [Option.isSome_iff_exists]
  constructor
  · rintro ⟨q, hq, -⟩
    exact ⟨q, hq⟩
  · rintro ⟨q, hq⟩
    exact ⟨q, hq, (get?_outputParams_spec h hv hq).1⟩

theorem get?_readOutputs {α : Type} (h : ofText config declared t = .ok p) (returned : Table α) :
    (p.readOutputs returned).get? v =
      (p.outputParams.get? v).bind fun q => returned.get? q.name :=
  Table.get?_filterMap (fun _ (q : Param) => returned.get? q.name) (nodup_outputParams h) v

/-- **When an output is kept.** The variable of an argument is among the outputs unless it
ends at an input, and then its value is read back as soon as every declared parameter has a
returned value. -/
theorem output_kept_iff {pair : Slot × Param} (h : ofText config declared t = .ok p)
    (hpair : pair ∈ p.call.slots.zip p.binding.params)
    (hv : config.isVariable pair.1.value = true) :
    (p.Yields pair.1.value ↔ ¬ p.EndsAtInput pair.1.value) ∧
      ∀ {α : Type} (returned : Table α), (∀ d ∈ declared, (returned.get? d.name).isSome = true) →
        (((p.readOutputs returned).get? pair.1.value).isSome = true ↔
          ¬ p.EndsAtInput pair.1.value) := by
  obtain ⟨last, hlast⟩ := lastBound?_isSome hpair
  have hkept : (p.outputParams.get? pair.1.value).isSome = true ↔ ¬ p.EndsAtInput pair.1.value := by
    rw [get?_outputParams h hv]
    unfold EndsAtInput
    rw [hlast]
    cases p.returnTo? pair.1.value with
    | some q => simp
    | none => cases hout : last.isOutput <;> simp [Option.filter, hout]
  refine ⟨(yields_iff_isSome h hv).trans hkept, fun returned hall => ?_⟩
  -- outputs are declared parameters, so each has a returned value
  rw [get?_readOutputs h, ← hkept]
  cases hq : p.outputParams.get? pair.1.value with
  | none => simp
  | some q =>
    have hin := (get?_outputParams_spec h hv hq).2
    simpa using hall q hin

/-- The output is kept when the argument that goes to an input parameter is named: named arguments
are bound first, so the last one bound is the output. -/
theorem output_kept_of_repeated : ∃ p,
    ofText .standard [⟨0, "@a".toList, 1, .output⟩, ⟨1, "@b".toList, 2, .input⟩]
      "p @v OUT, @b = @v".toList = .ok p ∧
    p.call.slots.map Slot.value = ["@v".toList, "@v".toList] ∧
    p.binding.params.map Param.isOutput = [true, false] ∧ p.Yields "@v".toList ∧
    ((p.readOutputs [("@a".toList, 7), ("@b".toList, 8)]).get? "@v".toList).isSome = true := by
  let a : Param := ⟨0, "@a".toList, 1, .output⟩
  let b : Param := ⟨1, "@b".toList, 2, .input⟩
  let first : Slot := .positional "@v".toList true
  let second : Slot := .named "@b".toList "@v".toList false
  let p : Prepared := ⟨⟨"p".toList, none, [first, second], .standard⟩,
    ⟨[a], [(a.name, a), (b.name, b)], [(first.value, a)], [a, b], []⟩, [a, b]⟩
  have h : ofText .standard [a, b] "p @v OUT, @b = @v".toList = .ok p := rfl
  have hlast : p.binding.lastBound? p.call.slots first.value = some a := rfl
  have hends : ¬ p.EndsAtInput first.value := by
    rintro ⟨⟨q, hq, hin⟩, -⟩
    rw [hlast] at hq
    cases hq
    cases hin
  have hpair : (first, a) ∈ p.call.slots.zip p.binding.params := List.mem_cons_self
  have hall : ∀ d ∈ [a, b],
      (Table.get? [("@a".toList, 7), ("@b".toList, 8)] d.name).isSome = true := by
    intro d hd
    rcases List.mem_cons.1 hd with rfl | hd
    · rfl
    · rw [List.mem_singleton.1 hd]
      rfl
  have hkept := output_kept_iff h hpair rfl
  exact ⟨p, h, rfl, rfl, hkept.1.2 hends, (hkept.2 _ hall).2 hends⟩

/-- A later argument with the same variable takes the output away when it goes to an input
parameter and is not named. -/
theorem output_lost_of_repeated : ∃ p,
    ofText .standard [⟨0, "@a".toList, 1, .output⟩, ⟨1, "@b".toList, 2, .input⟩]
      "p @v OUT, @v".toList = .ok p ∧
    (∃ pair ∈ p.call.slots.zip p.binding.params, Config.standard.isVariable pair.1.value = true ∧
      pair.2.isOutput = true ∧ ¬ p.Yields pair.1.value) ∧
    p.readOutputs [("@a".toList, 1), ("@b".toList, 2)] = [] := by
  let pair : Slot × Param := (.positional "@v".toList true, ⟨0, "@a".toList, 1, .output⟩)
  refine ⟨_, rfl, ⟨pair, ?_, rfl, rfl, ?_⟩, rfl⟩
  · exact List.mem_cons_self
  · rintro ⟨q, hq, -⟩
    cases hq

end Prepared

end ProcCall
