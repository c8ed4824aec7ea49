import ProcCall.Proofs.Outputs

/-!
# What a binding records

A binding keeps two tables: the values of the parameters that are bound to literals, under
the names of the parameters, and the parameters whose value is a variable, under the
variable. Both are filled in binding order. No parameter is bound twice, so as long as no two
declared parameters share a name, no value is written over another one; a variable may be
written over, and its last argument counts.

* `values_eq_records`: the table of values is the list of what was recorded.
* `mem_keys_byVariable`, `get?_byVariable_eq_some_iff`: the table of variables.
* `literals_conserved`: what both tables hold, argument by argument.
-/

namespace ProcCall.Binding

variable {config : Config} {declared : List Param} {slots : List Slot} {b : Binding}
  {pairs : List (Slot × Param)}

/-- Whether every declared parameter is known from its name. A parameter may be declared more
than once. -/
def NamesDiffer (declared : List Param) : Prop :=
  ∀ p ∈ declared, ∀ q ∈ declared, p.name = q.name → p = q

instance (declared : List Param) : Decidable (NamesDiffer declared) :=
  inferInstanceAs (Decidable (∀ p ∈ declared, ∀ q ∈ declared, p.name = q.name → p = q))

/-- What a binding **records** of the pairs of arguments and parameters. -/
structure Recorded (config : Config) (slots : List Slot) (b : Binding) : Prop where
  aligned : b.params.length = slots.length
  /-- Every literal is the value of the parameter that it is bound to. -/
  literal : ∀ pair ∈ slots.zip b.params, config.isVariable pair.1.value = false →
    ∃ l, Literal.ofText pair.1.value = .ok l ∧ b.values.get? pair.2.name = some l
  /-- Nothing else has a value. -/
  valued : ∀ name, name ∈ b.values.keys ↔
    ∃ pair ∈ slots.zip b.params, config.isVariable pair.1.value = false ∧ pair.2.name = name
  distinct : b.values.keys.Nodup
  /-- No literal is lost. -/
  count : b.values.length + (slots.filter (config.isVariable ·.value)).length = slots.length
  unset : ∀ pair ∈ slots.zip b.params, config.isVariable pair.1.value = true →
    pair.2.name ∉ b.values.keys
  variableKeys : ∀ v, v ∈ b.byVariable.keys ↔
    config.isVariable v = true ∧ ∃ slot ∈ slots, slot.value = v
  /-- A variable has the parameter of its last argument in binding order. -/
  last : ∀ v p, b.byVariable.get? v = some p ↔
    config.isVariable v = true ∧ ∃ before slot after,
      orderedPairs slots b.params = before ++ (slot, p) :: after ∧ slot.value = v ∧
        ∀ pair ∈ after, pair.1.value ≠ v

/-! ## The pairs in binding order -/

theorem orderedPairs_perm (params : List Param) :
    (orderedPairs slots params).Perm (slots.zip params) :=
  List.filter_append_perm _ _

theorem map_fst_pairs {params : List Param} (h : params.length = slots.length) :
    (slots.zip params).map (·.1) = slots :=
  List.map_fst_zip (by rw [h])

theorem evaluable_orderedPairs (h : ofSlots config declared slots = .ok b) :
    ∀ pair ∈ orderedPairs slots b.params, Evaluable config pair.1.value := by
  intro pair hpair
  have hslot : pair.1 ∈ slots := (List.of_mem_zip (mem_orderedPairs.1 hpair)).1
  exact (ofSlots_eq_ok_iff.1 h).1.literal pair.1 hslot

/-- No two pairs have parameters of one name. -/
theorem nodup_names (h : ofSlots config declared slots = .ok b) (hnames : NamesDiffer declared) :
    ((orderedPairs slots b.params).map (·.2.name)).Nodup := by
  have hbound := wellBound_of_ofSlots h
  have hparams : ((orderedPairs slots b.params).map (·.2)).Nodup := by
    refine ((orderedPairs_perm b.params).map _).nodup_iff.2 ?_
    rw [List.map_snd_zip (by rw [hbound.aligned])]
    exact hbound.distinct
  have hdeclared : ∀ p ∈ (orderedPairs slots b.params).map (·.2), p ∈ declared := by
    intro p hp
    obtain ⟨pair, hpair, rfl⟩ := List.mem_map.1 hp
    exact hbound.known _ (List.of_mem_zip (mem_orderedPairs.1 hpair)).2
  have hnodup := hparams.map_on fun p hp q hq heq =>
    hnames p (hdeclared p hp) q (hdeclared q hq) heq
  rwa [List.map_map] at hnodup

/-! ## Values -/

/-- Literals are recorded under the names of their parameters. -/
theorem keys_literalRecords (he : ∀ pair ∈ pairs, Evaluable config pair.1.value) :
    Table.keys (pairs.filterMap (literalRecord? config)) =
      (pairs.filter (!config.isVariable ·.1.value)).map (·.2.name) := by
  induction pairs with
  | nil => rfl
  | cons pair rest ih =>
    have hrest := ih fun x hx => he x (List.mem_cons_of_mem _ hx)
    cases hvar : config.isVariable pair.1.value with
    | true =>
      have hnone : literalRecord? config pair = none := by simp [literalRecord?, hvar]
      rw [List.filterMap_cons_none hnone, hrest, List.filter_cons_of_neg]
      simp [hvar]
    | false =>
      obtain ⟨l, hl⟩ := he pair List.mem_cons_self hvar
      have hsome : literalRecord? config pair = some (pair.2.name, l) := by
        simp [literalRecord?, hvar, hl, Except.toOption]
      rw [List.filterMap_cons_some hsome, List.filter_cons_of_pos (by simp [hvar]),
        List.map_cons, ← hrest]
      rfl

/-- **No value is written over another one**, since no two parameters share a name. -/
theorem values_eq_records (h : ofSlots config declared slots = .ok b)
    (hnames : NamesDiffer declared) :
    b.values = (orderedPairs slots b.params).filterMap (literalRecord? config) := by
  have hkeys := keys_literalRecords (evaluable_orderedPairs h)
  rw [(ofSlots_eq_ok_iff.1 h).2.values]
  refine Table.ofPairs_eq_self ?_
  rw [hkeys]
  exact (nodup_names h hnames).sublist (List.filter_sublist.map _)

theorem keys_values (h : ofSlots config declared slots = .ok b) (hnames : NamesDiffer declared) :
    b.values.keys =
      ((orderedPairs slots b.params).filter (!config.isVariable ·.1.value)).map (·.2.name) := by
  rw [values_eq_records h hnames, keys_literalRecords (evaluable_orderedPairs h)]

theorem nodup_values (h : ofSlots config declared slots = .ok b) : b.values.keys.Nodup := by
  rw [(ofSlots_eq_ok_iff.1 h).2.values]
  exact Table.nodup_ofPairs _

theorem mem_keys_values (h : ofSlots config declared slots = .ok b) (hnames : NamesDiffer declared)
    {name : Text} : name ∈ b.values.keys ↔
      ∃ pair ∈ slots.zip b.params, config.isVariable pair.1.value = false ∧ pair.2.name = name := by
  rw [keys_values h hnames]
  simp only [List.mem_map, List.mem_filter, mem_orderedPairs, Bool.not_eq_true',
    and_assoc]

/-- Literals are read back under the names of their parameters. -/
theorem get?_values (h : ofSlots config declared slots = .ok b) (hnames : NamesDiffer declared)
    {pair : Slot × Param} (hpair : pair ∈ slots.zip b.params)
    (hvar : config.isVariable pair.1.value = false) :
    ∃ l, Literal.ofText pair.1.value = .ok l ∧ b.values.get? pair.2.name = some l := by
  have hordered := mem_orderedPairs.2 hpair
  obtain ⟨l, hl⟩ := evaluable_orderedPairs h pair hordered hvar
  have hrecord : literalRecord? config pair = some (pair.2.name, l) := by
    simp [literalRecord?, hvar, hl, Except.toOption]
  refine ⟨l, hl, (Table.get?_eq_some_iff (nodup_values h)).2 ?_⟩
  rw [values_eq_records h hnames]
  exact List.mem_filterMap.2 ⟨pair, hordered, hrecord⟩

/-- An argument is bound to a literal or to a variable. -/
theorem length_values (h : ofSlots config declared slots = .ok b) (hnames : NamesDiffer declared) :
    b.values.length + (slots.filter (config.isVariable ·.value)).length = slots.length := by
  have hlen := (wellBound_of_ofSlots h).aligned
  have hvalues : b.values.length =
      ((slots.zip b.params).filter (!config.isVariable ·.1.value)).length := by
    calc b.values.length
        = b.values.keys.length := by rw [Table.keys, List.length_map]
      _ = ((orderedPairs slots b.params).filter (!config.isVariable ·.1.value)).length := by
          rw [keys_values h hnames, List.length_map]
      _ = ((slots.zip b.params).filter (!config.isVariable ·.1.value)).length :=
          ((orderedPairs_perm b.params).filter _).length_eq
  have hvariables : (slots.filter (config.isVariable ·.value)).length =
      ((slots.zip b.params).filter (config.isVariable ·.1.value)).length := by
    conv_lhs => rw [← map_fst_pairs hlen]
    rw [List.filter_map, List.length_map]
    rfl
  have hzip : (slots.zip b.params).length = slots.length := by
    rw [List.length_zip, hlen, Nat.min_self]
  rw [hvalues, hvariables, ← hzip, Nat.add_comm]
  exact (List.length_eq_length_filter_add _).symm

/-- A parameter that is bound to a variable has no value. -/
theorem not_mem_keys_values (h : ofSlots config declared slots = .ok b)
    (hnames : NamesDiffer declared) {pair : Slot × Param} (hpair : pair ∈ slots.zip b.params)
    (hvar : config.isVariable pair.1.value = true) : pair.2.name ∉ b.values.keys := by
  intro hin
  obtain ⟨other, hother, hliteral, hname⟩ := (mem_keys_values h hnames).1 hin
  -- the other pair would be this one, since it has the same name
  have heq : other = pair := List.inj_on_of_nodup_map (nodup_names h hnames)
    (mem_orderedPairs.2 hother) (mem_orderedPairs.2 hpair) hname
  rw [heq, hvar] at hliteral
  cases hliteral

/-! ## Variables -/

theorem mem_keys_byVariable (h : ofSlots config declared slots = .ok b) {v : Text} :
    v ∈ b.byVariable.keys ↔ config.isVariable v = true ∧ ∃ slot ∈ slots, slot.value = v := by
  rw [(ofSlots_eq_ok_iff.1 h).2.byVariable, Table.mem_keys_ofPairs]
  simp only [Table.keys, List.mem_map, List.mem_filterMap, mem_orderedPairs]
  constructor
  · rintro ⟨_, ⟨pair, hpair, hrecord⟩, rfl⟩
    unfold variableRecord? at hrecord
    split at hrecord
    · next hvar =>
      cases hrecord
      exact ⟨hvar, pair.1, (List.of_mem_zip hpair).1, rfl⟩
    · cases hrecord
  · rintro ⟨hvar, slot, hslot, rfl⟩
    -- the slot has a parameter, since all of them are bound
    have hlen := (wellBound_of_ofSlots h).aligned
    rw [← map_fst_pairs hlen] at hslot
    obtain ⟨pair, hpair, rfl⟩ := List.mem_map.1 hslot
    exact ⟨(pair.1.value, pair.2), ⟨pair, hpair, by simp [variableRecord?, hvar]⟩, rfl⟩

/-- The last element that a filter keeps. -/
theorem getLast?_filter_eq_some_iff {α : Type} {keep : α → Bool} {l : List α} {x : α} :
    (l.filter keep).getLast? = some x ↔ keep x = true ∧
      ∃ before after, l = before ++ x :: after ∧ ∀ y ∈ after, keep y = false := by
  rw [List.getLast?_eq_head?_reverse, ← List.filter_reverse, List.head?_filter,
    List.find?_eq_some_iff_append]
  constructor
  · rintro ⟨hx, before, after, hl, hbefore⟩
    refine ⟨hx, after.reverse, before.reverse, ?_, by simpa using hbefore⟩
    rw [← List.reverse_reverse l, hl]
    simp
  · rintro ⟨hx, before, after, rfl, hafter⟩
    exact ⟨hx, after.reverse, before.reverse, by simp, by simpa using hafter⟩

/-- **The table of variables**: the parameter of the last argument, in binding order. -/
theorem get?_byVariable_eq_some_iff (h : ofSlots config declared slots = .ok b) {v : Text}
    {p : Param} : b.byVariable.get? v = some p ↔
      config.isVariable v = true ∧ ∃ before slot after,
        orderedPairs slots b.params = before ++ (slot, p) :: after ∧ slot.value = v ∧
          ∀ pair ∈ after, pair.1.value ≠ v := by
  cases hvar : config.isVariable v with
  | false =>
    have hnone : b.byVariable.get? v = none := by
      refine Table.get?_eq_none fun hin => ?_
      rw [((mem_keys_byVariable h).1 hin).1] at hvar
      cases hvar
    simp [hnone]
  | true =>
    rw [get?_byVariable h hvar]
    unfold lastBound?
    constructor
    · intro hlast
      obtain ⟨⟨slot, _⟩, hpair, rfl⟩ := Option.map_eq_some_iff.1 hlast
      obtain ⟨hv, before, after, hsplit, hafter⟩ := getLast?_filter_eq_some_iff.1 hpair
      exact ⟨rfl, before, slot, after, hsplit, by simpa using hv, by simpa using hafter⟩
    · rintro ⟨-, before, slot, after, hsplit, hv, hafter⟩
      refine Option.map_eq_some_iff.2 ⟨(slot, p), getLast?_filter_eq_some_iff.2 ?_, rfl⟩
      exact ⟨by simpa using hv, before, after, hsplit, by simpa using hafter⟩

/-- **Literals are conserved by binding.** When no two declared parameters share a name, every
literal is the value of the parameter that it is bound to, nothing else has a value, and the
variables are known with the parameters of their last arguments. -/
theorem literals_conserved (h : ofSlots config declared slots = .ok b)
    (hnames : NamesDiffer declared) : Recorded config slots b where
  aligned := (wellBound_of_ofSlots h).aligned
  literal := fun _ hpair hvar => get?_values h hnames hpair hvar
  valued := fun _ => mem_keys_values h hnames
  distinct := nodup_values h
  count := length_values h hnames
  unset := fun _ hpair hvar => not_mem_keys_values h hnames hpair hvar
  variableKeys := fun _ => mem_keys_byVariable h
  last := fun _ _ => get?_byVariable_eq_some_iff h

/-- A literal under a name, a variable twice and a literal by its place. -/
theorem literals_conserved_of_four :
    let declared : List Param :=
      [⟨0, "@a".toList, 1, .input⟩, ⟨1, "@b".toList, 2, .output⟩, ⟨2, "@c".toList, 3, .input⟩,
        ⟨3, "@d".toList, 4, .output⟩]
    let slots : List Slot :=
      [.positional "'x'".toList false, .positional "@v".toList true,
        .named "@c".toList "5".toList false, .positional "@v".toList true]
    NamesDiffer declared ∧ ∃ b, ofSlots .standard declared slots = .ok b ∧
      Recorded .standard slots b ∧
      b.values = [("@c".toList, .integer 5), ("@a".toList, .string "x".toList)] ∧
      b.byVariable = [("@v".toList, ⟨3, "@d".toList, 4, .output⟩)] := by
  intro declared slots
  have hnames : NamesDiffer declared := by decide
  obtain ⟨b, hb⟩ : ∃ b, ofSlots .standard declared slots = .ok b := ⟨_, rfl⟩
  refine ⟨hnames, b, hb, literals_conserved hb hnames, ?_⟩
  cases hb
  exact ⟨rfl, rfl⟩

end ProcCall.Binding
