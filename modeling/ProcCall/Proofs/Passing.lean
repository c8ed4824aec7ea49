import ProcCall.Proofs.Records

/-!
# What the tables of a binding depend on

A value is **passed** to a parameter when an argument with that value is bound to it. As maps,
the tables of a binding are known from what is passed to what, whatever the order of the
arguments and whether they are named: the values when no two declared parameters share a
name, and the variables when none of them is the value of two arguments.

* `get?_values_eq_some_iff`, `get?_byVariable_eq_some_iff_passed`: both tables, read from what
  is passed.
* `sameMaps_of_passed`: two bindings that pass the same values to the same parameters.
-/

namespace ProcCall.Binding

variable {config : Config} {declared : List Param} {slots slots' : List Slot} {b b' : Binding}
  {v : Text} {p : Param}

/-- The values of arguments, each with the parameter that it is **passed** to. -/
def passed (slots : List Slot) (params : List Param) : List (Text × Param) :=
  (slots.map (·.value)).zip params

/-- Whether no variable is the value of two arguments. -/
def VariablesDiffer (config : Config) (slots : List Slot) : Prop :=
  ((slots.filter (config.isVariable ·.value)).map (·.value)).Nodup

/-- Whether two bindings hold **the same maps**: the same values, and the same variables when
none of these is the value of two arguments. -/
structure SameMaps (config : Config) (slots : List Slot) (b b' : Binding) : Prop where
  values : ∀ name, b'.values.get? name = b.values.get? name
  byVariable : VariablesDiffer config slots → ∀ v, b'.byVariable.get? v = b.byVariable.get? v

theorem mem_passed {params : List Param} :
    (v, p) ∈ passed slots params ↔ ∃ slot, (slot, p) ∈ slots.zip params ∧ slot.value = v := by
  unfold passed
  rw [List.zip_map_left, List.mem_map]
  constructor
  · rintro ⟨⟨slot, _⟩, hin, heq⟩
    cases heq
    exact ⟨slot, hin, rfl⟩
  · rintro ⟨slot, hin, rfl⟩
    exact ⟨(slot, p), hin, rfl⟩

/-! ## Values -/

theorem literalRecord?_eq_some_iff {pair : Slot × Param} {name : Text} {l : Literal} :
    literalRecord? config pair = some (name, l) ↔ config.isVariable pair.1.value = false ∧
      Literal.ofText pair.1.value = .ok l ∧ pair.2.name = name := by
  unfold literalRecord?
  cases config.isVariable pair.1.value with
  | true => simp
  | false => cases Literal.ofText pair.1.value <;> simp [Except.toOption, and_comm]

/-- The value of a name is the literal that is passed to the parameter of that name. -/
theorem get?_values_eq_some_iff (h : ofSlots config declared slots = .ok b)
    (hnames : NamesDiffer declared) {name : Text} {l : Literal} :
    b.values.get? name = some l ↔ ∃ pair ∈ passed slots b.params,
      config.isVariable pair.1 = false ∧ Literal.ofText pair.1 = .ok l ∧ pair.2.name = name := by
  rw [Table.get?_eq_some_iff (nodup_values h), values_eq_records h hnames, List.mem_filterMap]
  simp only [literalRecord?_eq_some_iff, mem_orderedPairs]
  constructor
  · rintro ⟨⟨slot, p⟩, hin, hrecord⟩
    exact ⟨(slot.value, p), mem_passed.2 ⟨slot, hin, rfl⟩, hrecord⟩
  · rintro ⟨⟨v, p⟩, hin, hrecord⟩
    obtain ⟨slot, hslot, rfl⟩ := mem_passed.1 hin
    exact ⟨(slot, p), hslot, hrecord⟩

/-! ## Variables -/

theorem variableRecord?_eq_some_iff {pair : Slot × Param} :
    variableRecord? config pair = some (v, p) ↔
      config.isVariable pair.1.value = true ∧ pair.1.value = v ∧ pair.2 = p := by
  unfold variableRecord?
  cases config.isVariable pair.1.value <;> simp

/-- Parameters are recorded under the variables of their arguments. -/
theorem keys_variableRecords (pairs : List (Slot × Param)) :
    Table.keys (pairs.filterMap (variableRecord? config)) =
      ((pairs.map (·.1)).filter (config.isVariable ·.value)).map (·.value) := by
  induction pairs with
  | nil => rfl
  | cons pair rest ih =>
    cases hvar : config.isVariable pair.1.value with
    | true =>
      have hsome := variableRecord?_eq_some_iff.2 ⟨hvar, rfl, rfl⟩
      rw [List.filterMap_cons_some hsome, List.map_cons, List.filter_cons, if_pos hvar,
        List.map_cons, ← ih]
      rfl
    | false =>
      have hnone : variableRecord? config pair = none := by simp [variableRecord?, hvar]
      rw [List.filterMap_cons_none hnone, ih, List.map_cons, List.filter_cons_of_neg]
      simp [hvar]

/-- **No variable is written over another one**, when none is the value of two arguments. -/
theorem byVariable_eq_records (h : ofSlots config declared slots = .ok b)
    (hdiffer : VariablesDiffer config slots) :
    b.byVariable = (orderedPairs slots b.params).filterMap (variableRecord? config) := by
  rw [(ofSlots_eq_ok_iff.1 h).2.byVariable]
  refine Table.ofPairs_eq_self ?_
  rw [keys_variableRecords]
  have hslots : ((orderedPairs slots b.params).map (·.1)).Perm slots := by
    have hpairs : ((orderedPairs slots b.params).map (·.1)).Perm
        ((slots.zip b.params).map (·.1)) := (orderedPairs_perm b.params).map _
    rwa [map_fst_pairs (wellBound_of_ofSlots h).aligned] at hpairs
  exact ((hslots.filter _).map _).nodup_iff.2 hdiffer

/-- A variable is known with the parameter that it is passed to. -/
theorem get?_byVariable_eq_some_iff_passed (h : ofSlots config declared slots = .ok b)
    (hdiffer : VariablesDiffer config slots) : b.byVariable.get? v = some p ↔
      config.isVariable v = true ∧ (v, p) ∈ passed slots b.params := by
  rw [Table.get?_eq_some_iff (nodup_byVariable h), byVariable_eq_records h hdiffer,
    List.mem_filterMap, mem_passed]
  simp only [variableRecord?_eq_some_iff, mem_orderedPairs]
  constructor
  · rintro ⟨⟨slot, q⟩, hin, hvar, rfl, rfl⟩
    exact ⟨hvar, slot, hin, rfl⟩
  · rintro ⟨hvar, slot, hin, rfl⟩
    exact ⟨(slot, p), hin, hvar, rfl, rfl⟩

/-- **Bindings that pass the same values to the same parameters** hold the same maps. -/
theorem sameMaps_of_passed (h : ofSlots config declared slots = .ok b)
    (h' : ofSlots config declared slots' = .ok b') (hnames : NamesDiffer declared)
    (hvariables : VariablesDiffer config slots → VariablesDiffer config slots')
    (hsame : ∀ pair, pair ∈ passed slots' b'.params ↔ pair ∈ passed slots b.params) :
    SameMaps config slots b b' where
  values := by
    intro name
    refine Option.ext fun l => ?_
    simp only [get?_values_eq_some_iff h hnames, get?_values_eq_some_iff h' hnames, hsame]
  byVariable := by
    intro hdiffer v
    refine Option.ext fun p => ?_
    rw [get?_byVariable_eq_some_iff_passed h hdiffer,
      get?_byVariable_eq_some_iff_passed h' (hvariables hdiffer), hsame]

end ProcCall.Binding
