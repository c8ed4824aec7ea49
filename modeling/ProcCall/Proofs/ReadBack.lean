import ProcCall.Proofs.Records

/-!
# Where the values read back come from

The values that are read back stand under the variables of the call. Each of them is the value
returned for one declared parameter, which an argument with that variable is bound to or
which carries the return value, and never for an input parameter.

* `mem_outputParams_iff`: the table of outputs, pair by pair.
* `mem_readOutputs_iff`: a value read back is the one returned for an output.
* `readOutputs_sound`: all values read back.
-/

namespace ProcCall.Prepared

open Binding

variable {config : Config} {declared : List Param} {t v : Text} {p : Prepared} {q : Param}
  {α : Type}

/-- The first declared parameter that carries a return value. -/
def returnValue? (declared : List Param) : Option Param := declared.find? (·.isReturnValue)

/-- Whether an output **comes from** a parameter: an argument whose value is the variable is
bound to it, or it carries the return value and the variable is the return variable. -/
def ComesFrom (config : Config) (declared : List Param) (p : Prepared) (v : Text) (q : Param) :
    Prop :=
  (config.isVariable v = true ∧
      ∃ slot, (slot, q) ∈ p.call.slots.zip p.binding.params ∧ slot.value = v) ∨
    p.call.returnVariable = some v ∧ returnValue? declared = some q

/-- What the values read back are, when some values have been returned. -/
structure ReadsBack (config : Config) (declared : List Param) (p : Prepared) (returned : Table α) :
    Prop where
  /-- Every value read back is the one returned for its parameter. -/
  source : ∀ v x, (v, x) ∈ p.readOutputs returned → ∃ q ∈ declared, q.isOutput = true ∧
    ComesFrom config declared p v q ∧ returned.get? q.name = some x
  /-- An output is read back exactly when its parameter has a returned value. -/
  keys : ∀ v, v ∈ (p.readOutputs returned).keys ↔
    ∃ q, (v, q) ∈ p.outputParams ∧ (returned.get? q.name).isSome = true
  distinct : (p.readOutputs returned).keys.Nodup
  /-- The return value goes to the return variable, whatever else is bound to it. -/
  returnValue : ∀ v q x, p.call.returnVariable = some v → returnValue? declared = some q →
    returned.get? q.name = some x → (p.readOutputs returned).get? v = some x
  noInput : ∀ v q, (v, q) ∈ p.outputParams → q.direction ≠ .input

theorem returnParam?_eq (h : ofText config declared t = .ok p) :
    p.returnParam? = returnValue? declared := by
  unfold returnParam? returnValue?
  rw [(bind_of_ofText h).2]

theorem returnTo?_eq_some_iff (h : ofText config declared t = .ok p) :
    p.returnTo? v = some q ↔ p.call.returnVariable = some v ∧ returnValue? declared = some q := by
  unfold returnTo?
  rw [returnParam?_eq h]
  by_cases hv : p.call.returnVariable = some v
  · simp [hv]
  · simp [hv]

/-- **The table of outputs**, pair by pair: the return value under its variable, and under
every other variable the parameter of its last argument if a value flows back from it. -/
theorem mem_outputParams_iff (h : ofText config declared t = .ok p) : (v, q) ∈ p.outputParams ↔
    p.returnTo? v = some q ∨
      p.returnTo? v = none ∧ p.binding.byVariable.get? v = some q ∧ q.isOutput = true := by
  rw [← Table.get?_eq_some_iff (nodup_outputParams h), get?_outputParams_eq h,
    Option.or_eq_some_iff, Option.filter_eq_some_iff]

theorem comesFrom_of_mem (h : ofText config declared t = .ok p) (hq : (v, q) ∈ p.outputParams) :
    q ∈ declared ∧ q.isOutput = true ∧ ComesFrom config declared p v q := by
  obtain ⟨hbind, hdeclared⟩ := bind_of_ofText h
  rcases (mem_outputParams_iff h).1 hq with hreturn | ⟨-, hbound, hout⟩
  · obtain ⟨hout, hin⟩ := returnTo?_isOutput hreturn
    rw [hdeclared] at hin
    exact ⟨hin, hout, .inr ((returnTo?_eq_some_iff h).1 hreturn)⟩
  · obtain ⟨hvar, before, slot, after, hsplit, rfl, -⟩ :=
      (get?_byVariable_eq_some_iff hbind).1 hbound
    have hpair : (slot, q) ∈ p.call.slots.zip p.binding.params := by
      refine mem_orderedPairs.1 ?_
      rw [hsplit]
      exact List.mem_append_right _ List.mem_cons_self
    have hin := (wellBound_of_ofSlots hbind).known q (List.of_mem_zip hpair).2
    exact ⟨hin, hout, .inl ⟨hvar, slot, hpair, rfl⟩⟩

/-- A value read back is the one returned for an output. -/
theorem mem_readOutputs_iff {returned : Table α} {x : α} : (v, x) ∈ p.readOutputs returned ↔
    ∃ q, (v, q) ∈ p.outputParams ∧ returned.get? q.name = some x := by
  unfold readOutputs
  rw [List.mem_filterMap]
  constructor
  · rintro ⟨⟨w, q⟩, hq, hx⟩
    obtain ⟨y, hy, heq⟩ := Option.map_eq_some_iff.1 hx
    cases heq
    exact ⟨q, hq, hy⟩
  · rintro ⟨q, hq, hx⟩
    exact ⟨(v, q), hq, Option.map_eq_some_iff.2 ⟨x, hx, rfl⟩⟩

theorem mem_keys_readOutputs_iff {returned : Table α} : v ∈ (p.readOutputs returned).keys ↔
    ∃ q, (v, q) ∈ p.outputParams ∧ (returned.get? q.name).isSome = true := by
  unfold Table.keys
  rw [List.mem_map]
  constructor
  · rintro ⟨⟨_, x⟩, hin, rfl⟩
    obtain ⟨q, hq, hx⟩ := mem_readOutputs_iff.1 hin
    exact ⟨q, hq, by rw [hx]; rfl⟩
  · rintro ⟨q, hq, hsome⟩
    obtain ⟨x, hx⟩ := Option.isSome_iff_exists.1 hsome
    exact ⟨(v, x), mem_readOutputs_iff.2 ⟨q, hq, hx⟩, rfl⟩

theorem nodup_readOutputs (h : ofText config declared t = .ok p) (returned : Table α) :
    (p.readOutputs returned).keys.Nodup :=
  (nodup_outputParams h).sublist
    (Table.keys_filterMap_sublist (fun _ (q : Param) => returned.get? q.name) p.outputParams)

/-- The return value is read back under the return variable. -/
theorem get?_readOutputs_returnVariable (h : ofText config declared t = .ok p)
    {returned : Table α} {x : α} (hv : p.call.returnVariable = some v)
    (hq : returnValue? declared = some q) (hx : returned.get? q.name = some x) :
    (p.readOutputs returned).get? v = some x := by
  have hreturn : p.returnTo? v = some q := (returnTo?_eq_some_iff h).2 ⟨hv, hq⟩
  have hmem : (v, q) ∈ p.outputParams := (mem_outputParams_iff h).2 (.inl hreturn)
  rw [Table.get?_eq_some_iff (nodup_readOutputs h returned)]
  exact mem_readOutputs_iff.2 ⟨q, hmem, hx⟩

/-- **Values are read back soundly.** Each of them is the value returned for a declared
parameter that is no input and that the variable stands for, all outputs with a returned
value are read back, and the return variable has the return value. -/
theorem readOutputs_sound (h : ofText config declared t = .ok p) (returned : Table α) :
    ReadsBack config declared p returned where
  source := by
    intro v x hx
    obtain ⟨q, hq, hreturned⟩ := mem_readOutputs_iff.1 hx
    obtain ⟨hin, hout, hfrom⟩ := comesFrom_of_mem h hq
    exact ⟨q, hin, hout, hfrom, hreturned⟩
  keys := fun _ => mem_keys_readOutputs_iff
  distinct := nodup_readOutputs h returned
  returnValue := fun _ _ _ hv hq hx => get?_readOutputs_returnVariable h hv hq hx
  noInput := by
    intro v q hq hinput
    have hout := (comesFrom_of_mem h hq).2.1
    simp [Param.isOutput, hinput] at hout

/-- The return value hides the argument that uses the return variable. -/
theorem readOutputs_sound_of_shared :
    let declared : List Param :=
      [⟨0, "@ret".toList, 0, .returnValue⟩, ⟨1, "@a".toList, 1, .output⟩,
        ⟨2, "@b".toList, 2, .inputOutput⟩]
    let returned : Table Nat := [("@b".toList, 2), ("@a".toList, 1), ("@ret".toList, 0)]
    ∃ p, ofText .standard declared "EXEC @r = p @r OUT, @v OUT".toList = .ok p ∧
      ReadsBack .standard declared p returned ∧
      p.readOutputs returned = [("@r".toList, 0), ("@v".toList, 2)] := by
  intro declared returned
  obtain ⟨p, hp⟩ : ∃ p, ofText .standard declared "EXEC @r = p @r OUT, @v OUT".toList = .ok p :=
    ⟨_, rfl⟩
  refine ⟨p, hp, readOutputs_sound hp returned, ?_⟩
  cases hp
  rfl

end ProcCall.Prepared
