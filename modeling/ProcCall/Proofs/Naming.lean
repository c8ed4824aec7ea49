import ProcCall.Proofs.Passing

/-!
# Naming every argument

A positional argument may be written with the name of its parameter instead. When every
declared parameter is known from the form in which its name is compared, a call that can be
bound is bound alike after all its arguments are named.

* `nameAll`: the arguments with the positional ones named.
* `passes_nameAll`: all of them are bound in the first pass, to the parameters they had.
* `bound_alike_when_named`: the binding of the named arguments.
-/

namespace ProcCall.Binding

/-- An argument named after its parameter, unless it is named already. -/
def nameSlot (pair : Slot × Param) : Slot :=
  if pair.1.isNamed then pair.1 else .named pair.2.name pair.1.value pair.1.isOutput

/-- The arguments with every positional one **named** after its parameter. -/
def nameAll (slots : List Slot) (params : List Param) : List Slot :=
  (slots.zip params).map nameSlot

variable {config : Config} {declared : List Param} {slots : List Slot} {params : List Param}
  {pair : Slot × Param} {b : Binding}

theorem NormalNamesDiffer.namesDiffer (h : NormalNamesDiffer config declared) :
    NamesDiffer declared :=
  fun p hp q hq heq => h p hp q hq (by rw [heq])

@[simp] theorem isNamed_nameSlot (pair : Slot × Param) : (nameSlot pair).isNamed = true := by
  unfold nameSlot
  split
  · assumption
  · rfl

@[simp] theorem value_nameSlot (pair : Slot × Param) : (nameSlot pair).value = pair.1.value := by
  unfold nameSlot
  split <;> rfl

theorem isNamed_of_mem_nameAll : ∀ slot ∈ nameAll slots params, slot.isNamed = true := by
  intro slot hslot
  obtain ⟨pair, -, rfl⟩ := List.mem_map.1 hslot
  exact isNamed_nameSlot pair

/-- The values of the arguments stay. -/
theorem map_value_nameAll (h : params.length = slots.length) :
    (nameAll slots params).map (·.value) = slots.map (·.value) := by
  have hpairs : (nameAll slots params).map (·.value) =
      ((slots.zip params).map (·.1)).map (·.value) := by
    unfold nameAll
    rw [List.map_map, List.map_map]
    exact List.map_congr_left fun pair _ => value_nameSlot pair
  rw [hpairs, map_fst_pairs h]

theorem variablesDiffer_nameAll (h : params.length = slots.length)
    (hdiffer : VariablesDiffer config slots) : VariablesDiffer config (nameAll slots params) := by
  have hvariables : ∀ l : List Slot, (l.filter (config.isVariable ·.value)).map (·.value) =
      (l.map (·.value)).filter config.isVariable := fun l => List.filter_map.symm
  unfold VariablesDiffer at hdiffer ⊢
  rw [hvariables, map_value_nameAll h, ← hvariables]
  exact hdiffer

/-- **A named argument finds the parameter** that the argument was bound to. -/
theorem namedTarget?_nameSlot (h : ofSlots config declared slots = .ok b)
    (hnames : NormalNamesDiffer config declared) (hpair : pair ∈ slots.zip b.params) :
    namedTarget? config declared (nameSlot pair) = some pair.2 := by
  have hbound := wellBound_of_ofSlots h
  have hin := hbound.known pair.2 (List.of_mem_zip hpair).2
  refine hnames.resolve?_eq_some hin ?_
  unfold nameSlot
  by_cases hs : pair.1.isNamed = true
  · obtain ⟨-, -, -, hname, -⟩ := hbound.first pair hpair hs
    rw [if_pos hs]
    exact hname
  · rw [if_neg hs]
    rfl

/-- All arguments are bound in the first pass. -/
theorem passes_nameAll (h : ofSlots config declared slots = .ok b)
    (hnames : NormalNamesDiffer config declared) :
    Passes config declared (nameAll slots b.params) b.params [] := by
  have hbound := wellBound_of_ofSlots h
  have hnone : (nameAll slots b.params).filter (!·.isNamed) = [] :=
    List.filter_eq_nil_iff.2 fun slot hs => by simp [isNamed_of_mem_nameAll slot hs]
  refine ⟨?_, hbound.distinct, by rw [hnone]; rfl, by rw [hnone]; exact Nat.zero_le _⟩
  calc namedTargets config declared (nameAll slots b.params)
      = (nameAll slots b.params).map (namedTarget? config declared) := by
        unfold namedTargets
        rw [List.filter_eq_self.2 isNamed_of_mem_nameAll]
    _ = ((slots.zip b.params).map (·.2)).map some := by
        unfold nameAll
        rw [List.map_map, List.map_map]
        exact List.map_congr_left fun pair hpair => namedTarget?_nameSlot h hnames hpair
    _ = b.params.map some := by rw [List.map_snd_zip (by rw [hbound.aligned])]

/-- When all arguments are named, the first pass gives all parameters. -/
theorem weave_of_named {positional : List Param} (hs : ∀ slot ∈ slots, slot.isNamed = true)
    (hlen : params.length = slots.length) : weave slots params positional = params := by
  induction slots generalizing params with
  | nil => exact (List.eq_nil_of_length_eq_zero hlen).symm
  | cons slot rest ih =>
    cases params with
    | nil => cases hlen
    | cons p others =>
      have hrest := ih (fun x hx => hs x (List.mem_cons_of_mem _ hx)) (by simpa using hlen)
      simp [weave, hs slot List.mem_cons_self, hrest]

/-- **Places and names agree.** When every declared parameter is known from its name, a call
that can be bound is bound to the same parameters after every positional argument is named,
with the same maps and without positional parameters. -/
theorem bound_alike_when_named (h : ofSlots config declared slots = .ok b)
    (hnames : NormalNamesDiffer config declared) :
    ∃ b', ofSlots config declared (nameAll slots b.params) = .ok b' ∧ b'.params = b.params ∧
      b'.positional = [] ∧ SameMaps config slots b b' := by
  have haligned := (wellBound_of_ofSlots h).aligned
  have hlen : (nameAll slots b.params).length = slots.length := by
    simp [nameAll, haligned]
  have hvalues : ∀ slot ∈ nameAll slots b.params, Evaluable config slot.value := by
    intro slot hslot
    obtain ⟨pair, hpair, rfl⟩ := List.mem_map.1 hslot
    rw [value_nameSlot]
    exact (ofSlots_eq_ok_iff.1 h).1.literal pair.1 (List.of_mem_zip hpair).1
  have h' := ofSlots_eq_ok_iff_passes.2 ⟨_, _, passes_nameAll h hnames, hvalues, rfl⟩
  have hparams : weave (nameAll slots b.params) b.params [] = b.params :=
    weave_of_named isNamed_of_mem_nameAll (by rw [hlen, haligned])
  refine ⟨_, h', hparams, rfl, sameMaps_of_passed h h' hnames.namesDiffer
    (variablesDiffer_nameAll haligned) fun pair => ?_⟩
  unfold passed
  rw [map_value_nameAll haligned]
  simp only [ofRun, hparams]

/-- The name of a parameter is written for a place, and the other name stays as it is. -/
theorem bound_alike_when_named_of_two :
    let declared : List Param :=
      [⟨0, "@result".toList, 0, .returnValue⟩, ⟨1, "@UserId".toList, 1, .input⟩,
        ⟨2, "@Name".toList, 2, .output⟩]
    let slots : List Slot :=
      [.named "NAME".toList "@v".toList true, .positional "7".toList false]
    NormalNamesDiffer .standard declared ∧ ∃ b, ofSlots .standard declared slots = .ok b ∧
      nameAll slots b.params =
        [.named "NAME".toList "@v".toList true, .named "@UserId".toList "7".toList false] ∧
      ∃ b', ofSlots .standard declared (nameAll slots b.params) = .ok b' ∧
        b'.params = b.params ∧ b'.positional = [] ∧ SameMaps .standard slots b b' := by
  intro declared slots
  have hnames : NormalNamesDiffer .standard declared := by
    unfold NormalNamesDiffer
    decide
  obtain ⟨b, hb⟩ : ∃ b, ofSlots .standard declared slots = .ok b := ⟨_, rfl⟩
  refine ⟨hnames, b, hb, ?_, bound_alike_when_named hb hnames⟩
  cases hb
  rfl

end ProcCall.Binding
