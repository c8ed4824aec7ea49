import ProcCall.Proofs.Targets

/-!
# Binding against its specification

`Bindable` and `target?` say without an order when arguments can be bound and where each
one goes. Binding succeeds exactly when the arguments are bindable, and its result is the
one **faithful** binding: every argument goes to its target, and the tables hold what the
pairs of arguments and parameters record in binding order.

* `ofSlots_eq_ok_iff`: success and result of binding.
* `ofSlots_meets_specification`: the same, with what it says about single arguments.
-/

namespace ProcCall.Binding

open Outcome

variable (config : Config) (declared : List Param) (slots : List Slot)

/-- The pairs of arguments and parameters in binding order. -/
def orderedPairs (slots : List Slot) (params : List Param) : List (Slot × Param) :=
  inOrder (·.1.isNamed) (slots.zip params)

/-- What a binding holds when every argument goes to its target. -/
structure Faithful (b : Binding) : Prop where
  aligned : b.params.length = slots.length
  target : ∀ i < slots.length, b.params[i]? = target? config declared slots i
  positional : b.positional = ((slots.zip b.params).filter (!·.1.isNamed)).map (·.2)
  declared : b.declared = Table.ofPairs (declared.map fun p => (p.name, p))
  byVariable : b.byVariable =
    Table.ofPairs ((orderedPairs slots b.params).filterMap (variableRecord? config))
  values : b.values =
    Table.ofPairs ((orderedPairs slots b.params).filterMap (literalRecord? config))

variable {config declared slots} {named positional : List Param} {b b' : Binding} {p : Param}

/-- A faithful binding is known from its parameters. -/
theorem Faithful.eq_mk (h : Faithful config declared slots b) : b =
    ⟨((slots.zip b.params).filter (!·.1.isNamed)).map (·.2),
      Table.ofPairs (declared.map fun p => (p.name, p)),
      Table.ofPairs ((orderedPairs slots b.params).filterMap (variableRecord? config)), b.params,
      Table.ofPairs ((orderedPairs slots b.params).filterMap (literalRecord? config))⟩ := by
  rw [← h.positional, ← h.declared, ← h.byVariable, ← h.values]

/-- There is one faithful binding at most. -/
theorem Faithful.unique (h : Faithful config declared slots b)
    (h' : Faithful config declared slots b') : b = b' := by
  have hparams : b.params = b'.params := by
    apply List.ext_getElem?
    intro i
    by_cases hi : i < slots.length
    · rw [h.target i hi, h'.target i hi]
    · rw [List.getElem?_eq_none (by rw [h.aligned]; omega),
        List.getElem?_eq_none (by rw [h'.aligned]; omega)]
  rw [h.eq_mk, h'.eq_mk, hparams]

theorem nodup_eraseDups (l : List Param) : l.eraseDups.Nodup := by
  induction hn : l.length using Nat.strong_induction_on generalizing l with
  | _ n ih =>
    cases l with
    | nil => exact List.nodup_nil
    | cons p rest =>
      rw [List.eraseDups_cons]
      have hlt : (rest.filter (!· == p)).length < n := by
        rw [← hn]; exact Nat.lt_succ_of_le (List.length_filter_le _ _)
      exact List.nodup_cons.2 ⟨by simp, ih _ hlt _ rfl⟩

theorem eraseDups_of_nodup {l : List Param} (h : l.Nodup) : l.eraseDups = l := by
  induction l with
  | nil => rfl
  | cons p rest ih =>
    obtain ⟨hp, hrest⟩ := List.nodup_cons.1 h
    have hsame : rest.filter (!· == p) = rest := by
      refine List.filter_eq_self.2 fun q hq => ?_
      have hne : q ≠ p := by rintro rfl; exact hp hq
      simpa using hne
    rw [List.eraseDups_cons, hsame, ih hrest]

theorem remaining_eq_freeParams (h : namedTargets config declared slots = named.map some) :
    remaining declared named.reverse = freeParams config declared slots := by
  unfold remaining freeParams
  rw [h]
  congr 1
  apply List.filter_congr
  intro p _
  simp [isFree]

/-- The parameters of the named and of the positional arguments when all are bound. -/
structure Passes (config : Config) (declared : List Param) (slots : List Slot)
    (named positional : List Param) : Prop where
  targets : namedTargets config declared slots = named.map some
  distinct : named.Nodup
  free : positional = (freeParams config declared slots).take (slots.filter (!·.isNamed)).length
  enough : (slots.filter (!·.isNamed)).length ≤ (freeParams config declared slots).length

/-- What the two passes choose when both succeed. -/
theorem chosen_passes_iff :
    (Chosen config declared [] (slots.filter (·.isNamed)) named ∧
      Chosen config declared named.reverse (slots.filter (!·.isNamed)) positional) ↔
    Passes config declared slots named positional := by
  rw [chosen_named_iff fun slot h => (List.mem_filter.1 h).2,
    chosen_positional_iff fun slot h => by simpa using (List.mem_filter.1 h).2]
  constructor
  · rintro ⟨⟨hm, hnd, -⟩, hp, hl⟩
    rw [remaining_eq_freeParams hm] at hp hl
    exact ⟨hm, hnd, hp, hl⟩
  · rintro ⟨hm, hnd, hp, hl⟩
    rw [remaining_eq_freeParams hm]
    exact ⟨⟨hm, hnd, by simp⟩, hp, hl⟩

theorem taken_record_zip {params : List Param} (h : params.length = slots.length) :
    (State.empty.record config (slots.zip params)).taken = params.reverse := by
  rw [record_taken, List.map_snd_zip (by omega)]
  exact List.append_nil _

theorem evaluable_passes :
    ((∀ slot ∈ slots.filter (·.isNamed), Evaluable config slot.value) ∧
      ∀ slot ∈ slots.filter (!·.isNamed), Evaluable config slot.value) ↔
    ∀ slot ∈ slots, Evaluable config slot.value := by
  constructor
  · rintro ⟨hn, hp⟩ slot hs
    by_cases h : slot.isNamed = true
    · exact hn slot (List.mem_filter.2 ⟨hs, h⟩)
    · exact hp slot (List.mem_filter.2 ⟨hs, by simpa using h⟩)
  · intro h
    constructor <;> intro slot hs <;> exact h slot (List.mem_filter.1 hs).1

namespace Passes

variable (h : Passes config declared slots named positional)

include h

theorem named_length : named.length = (slots.filter (·.isNamed)).length := by
  simpa [namedTargets] using (congrArg List.length h.targets).symm

theorem positional_length : positional.length = (slots.filter (!·.isNamed)).length := by
  rw [h.free, List.length_take]
  exact Nat.min_eq_left h.enough

/-- The pairs of a binding in binding order are the pairs of the two passes. -/
theorem orderedPairs_weave : orderedPairs slots (weave slots named positional) =
    (slots.filter (·.isNamed)).zip named ++ (slots.filter (!·.isNamed)).zip positional := by
  obtain ⟨-, hnamed, hpositional⟩ := weave_pairs h.named_length h.positional_length
  unfold orderedPairs inOrder
  rw [hnamed, hpositional]

/-- Every argument goes to its target. -/
theorem weave_target {i : Nat} (hi : i < slots.length) :
    (weave slots named positional)[i]? = target? config declared slots i := by
  obtain ⟨hlen, hnamed, hpositional⟩ := weave_pairs h.named_length h.positional_length
  have hw : i < (weave slots named positional).length := by omega
  have hpair : (slots.zip (weave slots named positional))[i]? =
      some (slots[i], (weave slots named positional)[i]) := by
    rw [List.getElem?_eq_getElem (by rw [List.length_zip]; omega), List.getElem_zip]
  unfold target?
  rw [List.getElem?_eq_getElem hi, List.getElem?_eq_getElem hw]
  simp only
  by_cases hs : slots[i].isNamed = true
  · -- a named argument stands in the first pass, with the parameter of its name
    rw [if_pos hs]
    have hin : (slots[i], (weave slots named positional)[i]) ∈
        (slots.filter (·.isNamed)).zip named := by
      rw [← hnamed]
      exact List.mem_filter.2 ⟨List.mem_of_getElem? hpair, hs⟩
    exact (eq_of_mem_zip_map h.targets hin).symm
  · -- a positional one stands in the second pass where those before it end
    rw [if_neg hs]
    have hrank := getElem?_filter_rank (!·.1.isNamed) hpair (by simpa using hs)
    rw [hpositional, rank_zip hlen, List.getElem?_zip_eq_some] at hrank
    have hk : rank slots i < positional.length := (List.getElem?_eq_some_iff.1 hrank.2).1
    have hfree : positional[rank slots i]? = (freeParams config declared slots)[rank slots i]? := by
      rw [h.positional_length] at hk
      rw [h.free, List.getElem?_take, if_pos hk]
    rw [← hrank.2, hfree]

/-- The binding of two passes is faithful. -/
theorem faithful : Faithful config declared slots (ofRun declared slots named positional
    (State.empty.record config (orderedPairs slots (weave slots named positional)))) := by
  obtain ⟨hlen, -, hpositional⟩ := weave_pairs h.named_length h.positional_length
  refine ⟨hlen, fun i hi => h.weave_target hi, ?_, rfl, rfl, rfl⟩
  simp only [ofRun]
  rw [hpositional, List.map_snd_zip (by rw [h.positional_length])]

/-- The parameters of all arguments are those of the two passes. -/
theorem weave_perm : (weave slots named positional).Perm (named ++ positional) := by
  obtain ⟨hlen, -, -⟩ := weave_pairs h.named_length h.positional_length
  have hpairs : (orderedPairs slots (weave slots named positional)).map (·.2) =
      named ++ positional := by
    rw [h.orderedPairs_weave, List.map_append, List.map_snd_zip (by rw [h.named_length]),
      List.map_snd_zip (by rw [h.positional_length])]
  calc weave slots named positional
      = (slots.zip (weave slots named positional)).map (·.2) := (List.map_snd_zip (by omega)).symm
    List.Perm _ ((orderedPairs slots (weave slots named positional)).map (·.2)) :=
        (List.filter_append_perm _ _).symm.map _
    _ = named ++ positional := hpairs

theorem mem_positional (hp : p ∈ positional) :
    p ∈ declared ∧ p.isReturnValue = false ∧ p ∉ named := by
  rw [h.free] at hp
  have hin := List.mem_of_mem_take hp
  simp only [freeParams, List.mem_eraseDups, List.mem_filter, h.targets] at hin
  simpa using hin

theorem mem_named (hp : p ∈ named) : p ∈ declared := by
  have hin : some p ∈ namedTargets config declared slots := by
    rw [h.targets]; exact List.mem_map_of_mem hp
  obtain ⟨slot, -, hslot⟩ := List.mem_map.1 hin
  exact List.mem_of_find?_eq_some hslot

/-- No parameter is bound twice. -/
theorem nodup : (named ++ positional).Nodup := by
  refine List.nodup_append.2 ⟨h.distinct, ?_, ?_⟩
  · rw [h.free]
    exact (nodup_eraseDups _).sublist (List.take_sublist _ _)
  · intro p hn q hq heq
    exact (h.mem_positional hq).2.2 (heq ▸ hn)

end Passes

/-- **When binding succeeds**, by its two passes. -/
theorem ofSlots_eq_ok_iff_passes : ofSlots config declared slots = .ok b ↔
    ∃ named positional, Passes config declared slots named positional ∧
      (∀ slot ∈ slots, Evaluable config slot.value) ∧
      b = ofRun declared slots named positional
        (State.empty.record config (orderedPairs slots (weave slots named positional))) := by
  constructor
  · intro h
    obtain ⟨named, mid, positional, last, hn, hp, rfl⟩ := ofSlots_eq_ok_iff_run.1 h
    obtain ⟨hcn, hen, rfl⟩ := run_eq_ok_iff.1 hn
    obtain ⟨hcp, hep, rfl⟩ := run_eq_ok_iff.1 hp
    -- the second pass starts with the parameters of the first one taken
    rw [taken_record_zip hcn.length] at hcp
    have hpass := chosen_passes_iff.1 ⟨hcn, hcp⟩
    refine ⟨named, positional, hpass, evaluable_passes.1 ⟨hen, hep⟩, ?_⟩
    rw [hpass.orderedPairs_weave, record_append]
  · rintro ⟨named, positional, hpass, he, rfl⟩
    obtain ⟨hen, hep⟩ := evaluable_passes.2 he
    obtain ⟨hcn, hcp⟩ := chosen_passes_iff.2 hpass
    refine ofSlots_eq_ok_iff_run.2 ⟨named, _, positional, _, run_eq_ok_iff.2 ⟨hcn, hen, rfl⟩,
      run_eq_ok_iff.2 ⟨?_, hep, rfl⟩, ?_⟩
    · rw [taken_record_zip hcn.length]; exact hcp
    · rw [hpass.orderedPairs_weave, record_append]

/-- The conditions under which every argument has a parameter of its own: those of
`Bindable`, the values aside. -/
structure Placeable (config : Config) (declared : List Param) (slots : List Slot) : Prop where
  known : ∀ slot ∈ slots, slot.isNamed → (namedTarget? config declared slot).isSome
  distinct : (namedTargets config declared slots).Nodup
  enough : (slots.filter (!·.isNamed)).length ≤ (freeParams config declared slots).length

theorem placeable_iff_passes : Placeable config declared slots ↔
    ∃ named positional, Passes config declared slots named positional := by
  constructor
  · intro h
    have hsome : ∀ t ∈ namedTargets config declared slots, t.isSome = true := by
      intro t ht
      obtain ⟨slot, hs, rfl⟩ := List.mem_map.1 ht
      obtain ⟨hs, hn⟩ := List.mem_filter.1 hs
      exact h.known slot hs hn
    have hm : namedTargets config declared slots =
        ((namedTargets config declared slots).filterMap id).map some := by
      rw [List.map_filterMap_some_eq_filter_map_isSome,
        List.filter_eq_self.2 (by simpa using hsome)]
      simp
    have hnd := h.distinct
    rw [hm] at hnd
    exact ⟨_, _, hm, hnd.of_map, rfl, h.enough⟩
  · rintro ⟨named, positional, h⟩
    refine ⟨?_, ?_, h.enough⟩
    · intro slot hs hn
      have hin : namedTarget? config declared slot ∈ namedTargets config declared slots :=
        List.mem_map_of_mem (List.mem_filter.2 ⟨hs, hn⟩)
      rw [h.targets] at hin
      obtain ⟨p, -, hp⟩ := List.mem_map.1 hin
      rw [← hp]; rfl
    · rw [h.targets]
      exact h.distinct.map fun _ _ heq => Option.some.inj heq

theorem placeable_iff_chosen : Placeable config declared slots ↔
    ∃ params, Chosen config declared [] (bindingOrder slots) params := by
  rw [placeable_iff_passes]
  unfold bindingOrder inOrder
  constructor
  · rintro ⟨named, positional, h⟩
    obtain ⟨hn, hp⟩ := chosen_passes_iff.2 h
    exact ⟨named ++ positional, chosen_append.2 ⟨named, positional, rfl, hn, by simpa using hp⟩⟩
  · rintro ⟨params, h⟩
    obtain ⟨named, positional, rfl, hn, hp⟩ := chosen_append.1 h
    exact ⟨named, positional, chosen_passes_iff.1 ⟨hn, by simpa using hp⟩⟩

/-- The arguments up to one are placeable exactly when those before it choose parameters
and it has one to choose then. -/
theorem placeable_append_iff {before after : List Slot} {slot : Slot}
    (h : bindingOrder slots = before ++ slot :: after) :
    Placeable config declared (before ++ [slot]) ↔
      ∃ params p, Chosen config declared [] before params ∧
        choose config declared params.reverse slot = .ok p := by
  have horder : bindingOrder (before ++ [slot]) = before ++ [slot] :=
    inOrder_of_prefix (b := after) (by simpa [bindingOrder] using h)
  rw [placeable_iff_chosen, horder]
  constructor
  · rintro ⟨_, hc⟩
    obtain ⟨params, _, -, hb, hs⟩ := chosen_append.1 hc
    rw [List.append_nil] at hs
    cases hs with
    | @cons _ _ _ _ p hp _ => exact ⟨params, p, hb, hp⟩
  · rintro ⟨params, p, hb, hp⟩
    exact ⟨params ++ [p], chosen_append.2
      ⟨params, [p], rfl, hb, .cons (by rw [List.append_nil]; exact hp) (.nil _)⟩⟩

theorem bindable_iff_placeable : Bindable config declared slots ↔
    Placeable config declared slots ∧ ∀ slot ∈ slots, Evaluable config slot.value :=
  ⟨fun h => ⟨⟨h.known, h.distinct, h.enough⟩, h.literal⟩,
    fun h => ⟨h.1.known, h.1.distinct, h.1.enough, h.2⟩⟩

theorem bindable_iff_passes : Bindable config declared slots ↔
    (∃ named positional, Passes config declared slots named positional) ∧
      ∀ slot ∈ slots, Evaluable config slot.value := by
  rw [bindable_iff_placeable, placeable_iff_passes]

/-- **Binding against its specification.** Binding succeeds exactly when the arguments are
bindable, and then gives the faithful binding. -/
theorem ofSlots_eq_ok_iff : ofSlots config declared slots = .ok b ↔
    Bindable config declared slots ∧ Faithful config declared slots b := by
  constructor
  · intro h
    obtain ⟨named, positional, hpass, he, rfl⟩ := ofSlots_eq_ok_iff_passes.1 h
    exact ⟨bindable_iff_passes.2 ⟨⟨named, positional, hpass⟩, he⟩, hpass.faithful⟩
  · rintro ⟨hb, hf⟩
    obtain ⟨⟨named, positional, hpass⟩, he⟩ := bindable_iff_passes.1 hb
    exact ofSlots_eq_ok_iff_passes.2 ⟨named, positional, hpass, he, hf.unique hpass.faithful⟩

/-- What a bound list of arguments looks like: every argument has its target, no parameter
is bound twice and all are declared, a named argument has the first declared parameter of
its name, and a positional one never has a return value. -/
structure WellBound (config : Config) (declared : List Param) (slots : List Slot)
    (params : List Param) : Prop where
  aligned : params.length = slots.length
  target : ∀ i < slots.length, params[i]? = target? config declared slots i
  distinct : params.Nodup
  known : ∀ p ∈ params, p ∈ declared
  first : ∀ pair ∈ slots.zip params, pair.1.isNamed = true →
    ∃ before after, declared = before ++ pair.2 :: after ∧
      config.normalizeName pair.2.name = config.normalizeName (pair.1.name.getD []) ∧
      ∀ q ∈ before, config.normalizeName q.name ≠ config.normalizeName (pair.1.name.getD [])
  noReturn : ∀ pair ∈ slots.zip params, pair.1.isNamed = false → pair.2.isReturnValue = false

theorem Passes.wellBound (h : Passes config declared slots named positional) :
    WellBound config declared slots (weave slots named positional) := by
  obtain ⟨hlen, hnamed, hpositional⟩ := weave_pairs h.named_length h.positional_length
  refine ⟨hlen, fun i hi => h.weave_target hi, h.weave_perm.nodup_iff.2 h.nodup, ?_, ?_, ?_⟩
  · intro p hp
    rcases List.mem_append.1 (h.weave_perm.mem_iff.1 hp) with hp | hp
    · exact h.mem_named hp
    · exact (h.mem_positional hp).1
  · rintro ⟨slot, p⟩ hpair hs
    have hin : (slot, p) ∈ (slots.filter (·.isNamed)).zip named := by
      rw [← hnamed]; exact List.mem_filter.2 ⟨hpair, hs⟩
    obtain ⟨heq, before, after, hsplit, hbefore⟩ :=
      List.find?_eq_some_iff_append.1 (eq_of_mem_zip_map h.targets hin)
    exact ⟨before, after, hsplit, by simpa using heq, by simpa using hbefore⟩
  · rintro ⟨slot, p⟩ hpair hs
    have hin : (slot, p) ∈ (slots.filter (!·.isNamed)).zip positional := by
      rw [← hpositional]; exact List.mem_filter.2 ⟨hpair, by simp [hs]⟩
    exact (h.mem_positional (List.of_mem_zip hin).2).2.1

theorem wellBound_of_ofSlots (h : ofSlots config declared slots = .ok b) :
    WellBound config declared slots b.params := by
  obtain ⟨named, positional, hpass, -, rfl⟩ := ofSlots_eq_ok_iff_passes.1 h
  exact hpass.wellBound

/-- **Binding is its specification.** Arguments are bound exactly when every named one has a
declared parameter of its name, no two of them have the same, enough parameters are left for
the positional ones and every value that is no variable is a literal. Then every argument
has its target, so no parameter is bound twice and no return value to a positional
argument. -/
theorem ofSlots_meets_specification (config : Config) (declared : List Param) (slots : List Slot) :
    ((∃ b, ofSlots config declared slots = .ok b) ↔ Bindable config declared slots) ∧
      ∀ b, ofSlots config declared slots = .ok b → WellBound config declared slots b.params := by
  refine ⟨⟨?_, ?_⟩, ?_⟩
  · rintro ⟨b, h⟩
    exact (ofSlots_eq_ok_iff.1 h).1
  · intro h
    obtain ⟨⟨named, positional, hpass⟩, he⟩ := bindable_iff_passes.1 h
    exact ⟨_, ofSlots_eq_ok_iff_passes.2 ⟨named, positional, hpass, he, rfl⟩⟩
  · intro b h
    obtain ⟨named, positional, hpass, -, rfl⟩ := ofSlots_eq_ok_iff_passes.1 h
    exact hpass.wellBound

end ProcCall.Binding
