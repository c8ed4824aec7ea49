import ProcCall.Proofs.Passing
import Mathlib.Data.Fintype.Fin
import Mathlib.Data.List.FinRange

/-!
# Rearranging the arguments

Named arguments may be written anywhere: a call that is rearranged without a change in the
order of its positional arguments is bound alike. Whether arguments can be bound does not
depend on their order at all, and an argument keeps its parameter because a named one goes by
its name and a positional one by its rank among the positional ones.

* `rank_rearrange`: positional arguments keep their ranks.
* `target?_rearrange`: every argument keeps its parameter.
* `bindable_of_perm`: arguments in another order can be bound as well.
* `bound_alike_when_rearranged`: the binding of the rearranged arguments.
-/

namespace ProcCall.Binding

/-- The arguments **rearranged**: the one with number `σ i` comes at number `i`. -/
def rearrange (slots : List Slot) (σ : Equiv.Perm (Fin slots.length)) : List Slot :=
  List.ofFn fun i => slots[σ i]

/-- Whether a rearrangement keeps positional arguments in their order. -/
def KeepsPositional (slots : List Slot) (σ : Equiv.Perm (Fin slots.length)) : Prop :=
  ∀ i j, slots[σ i].isNamed = false → slots[σ j].isNamed = false → i < j → σ i < σ j

/-- Whether a binding of rearranged arguments is **rearranged alike**: every argument has the
parameter that it had, and all else is the same. -/
structure RearrangedAlike (config : Config) (slots : List Slot)
    (σ : Equiv.Perm (Fin slots.length)) (b b' : Binding) : Prop where
  aligned : b.params.length = slots.length ∧ b'.params.length = slots.length
  params : ∀ i : Fin slots.length, b'.params[i.val]? = b.params[(σ i).val]?
  positional : b'.positional = b.positional
  maps : SameMaps config slots b b'

variable {config : Config} {declared : List Param} {slots slots' : List Slot} {b b' : Binding}
  {σ : Equiv.Perm (Fin slots.length)}

/-! ## Places in a rearranged list -/

@[simp] theorem length_rearrange : (rearrange slots σ).length = slots.length := by
  simp [rearrange]

theorem getElem?_rearrange (i : Fin slots.length) :
    (rearrange slots σ)[i.val]? = some slots[σ i] := by
  simp [rearrange]

theorem rearrange_perm : (rearrange slots σ).Perm slots := by
  have hperm := σ.ofFn_comp_perm fun i => slots[i]
  have hslots : (List.ofFn fun i : Fin slots.length => slots[i]) = slots := List.ofFn_getElem
  rwa [hslots] at hperm

/-- The rank of a place, as a number of places. -/
theorem rank_ofFn {n : Nat} (f : Fin n → Slot) (k : Nat) : rank (List.ofFn f) k =
    (Finset.univ.filter fun j : Fin n => j.val < k ∧ (f j).isNamed = false).card := by
  induction n generalizing k with
  | zero => simp [rank]
  | succ n ih =>
    -- the first place counts when it is before `k`, and the others are one place further
    rw [List.ofFn_succ, Fin.card_filter_univ_succ]
    cases k with
    | zero => simp [rank]
    | succ k =>
      have hrest := ih (fun i => f i.succ) k
      unfold rank at hrest ⊢
      rw [List.take_succ_cons, List.filter_cons]
      cases (f 0).isNamed <;> simp [hrest]

/-- **Positional arguments keep their ranks.** -/
theorem rank_rearrange (hσ : KeepsPositional slots σ) {i : Fin slots.length}
    (hi : slots[σ i].isNamed = false) : rank (rearrange slots σ) i = rank slots (σ i) := by
  have hslots : (List.ofFn fun i : Fin slots.length => slots[i]) = slots := List.ofFn_getElem
  rw [← congrArg (rank · (σ i)) hslots, rearrange, rank_ofFn, rank_ofFn]
  -- the positional ones before it come from those that were before it
  refine Finset.card_equiv σ fun j => ?_
  simp only [Finset.mem_filter, Finset.mem_univ, true_and]
  refine and_congr_left fun hj => ⟨fun hlt => hσ j i hj hi hlt, fun hlt => ?_⟩
  by_contra hge
  rcases Nat.lt_or_eq_of_le (Nat.le_of_not_lt hge) with hgt | heq
  · exact absurd (hσ i j hi hj hgt) (not_lt_of_gt hlt)
  · rw [Fin.ext heq] at hlt
    exact lt_irrefl _ hlt

/-! ## Other orders of the arguments -/

theorem namedTargets_perm (h : slots'.Perm slots) :
    (namedTargets config declared slots').Perm (namedTargets config declared slots) :=
  (h.filter _).map _

/-- The free parameters do not depend on the order of the arguments. -/
theorem freeParams_of_perm (h : slots'.Perm slots) :
    freeParams config declared slots' = freeParams config declared slots := by
  have hin : ∀ t, (namedTargets config declared slots').contains t =
      (namedTargets config declared slots).contains t := fun t =>
    Bool.eq_iff_iff.2 (by simpa using (namedTargets_perm h).mem_iff)
  simp only [freeParams, hin]

/-- **Arguments in another order** can be bound as well. -/
theorem bindable_of_perm (h : slots'.Perm slots) (hb : Bindable config declared slots) :
    Bindable config declared slots' where
  known := fun s hs => hb.known s (h.mem_iff.1 hs)
  distinct := (namedTargets_perm h).nodup_iff.2 hb.distinct
  enough := by
    rw [freeParams_of_perm h, (h.filter _).length_eq]
    exact hb.enough
  literal := fun s hs => hb.literal s (h.mem_iff.1 hs)

theorem variablesDiffer_of_perm (h : slots'.Perm slots) (hv : VariablesDiffer config slots) :
    VariablesDiffer config slots' :=
  ((h.filter _).map _).nodup_iff.2 hv

/-- The parameters of the positional arguments do not depend on the order of the others. -/
theorem positional_of_perm (h : slots'.Perm slots) (hb : ofSlots config declared slots = .ok b)
    (hb' : ofSlots config declared slots' = .ok b') : b'.positional = b.positional := by
  obtain ⟨named, positional, hpass, -, rfl⟩ := ofSlots_eq_ok_iff_passes.1 hb
  obtain ⟨named', positional', hpass', -, rfl⟩ := ofSlots_eq_ok_iff_passes.1 hb'
  show positional' = positional
  rw [hpass'.free, hpass.free, freeParams_of_perm h, (h.filter _).length_eq]

/-! ## The binding -/

/-- **Every argument keeps its parameter.** -/
theorem target?_rearrange (hσ : KeepsPositional slots σ) (i : Fin slots.length) :
    target? config declared (rearrange slots σ) i = target? config declared slots (σ i) := by
  unfold target?
  rw [getElem?_rearrange, List.getElem?_eq_getElem (σ i).isLt]
  simp only [Fin.getElem_fin]
  cases hs : slots[(σ i).val].isNamed with
  | true => rfl
  | false =>
    simp only [Bool.false_eq_true, if_false]
    rw [freeParams_of_perm rearrange_perm, rank_rearrange hσ hs]

/-- What a list holds, by the places that it may have. -/
theorem mem_iff_exists_place {α : Type} {l : List α} {n : Nat} (h : l.length ≤ n) {x : α} :
    x ∈ l ↔ ∃ i : Fin n, l[i.val]? = some x := by
  rw [List.mem_iff_getElem?]
  constructor
  · rintro ⟨i, hi⟩
    have hlt := (List.getElem?_eq_some_iff.1 hi).1
    exact ⟨⟨i, by omega⟩, hi⟩
  · rintro ⟨i, hi⟩
    exact ⟨i, hi⟩

/-- The same values are passed to the same parameters. -/
theorem mem_passed_rearrange {params params' : List Param}
    (h : ∀ i : Fin slots.length, params'[i.val]? = params[(σ i).val]?) (pair : Text × Param) :
    pair ∈ passed (rearrange slots σ) params' ↔ pair ∈ passed slots params := by
  have hplace : ∀ i : Fin slots.length,
      (passed (rearrange slots σ) params')[i.val]? = (passed slots params)[(σ i).val]? := by
    intro i
    simp only [passed, List.zip, List.getElem?_zipWith, List.getElem?_map, getElem?_rearrange, h i]
    simp
  rw [mem_iff_exists_place (n := slots.length) (by simp [passed]),
    mem_iff_exists_place (n := slots.length) (by simp [passed])]
  simp only [hplace]
  exact (σ.surjective.exists (p := fun i => (passed slots params)[i.val]? = some pair)).symm

theorem rearrangedAlike (hσ : KeepsPositional slots σ) (hnames : NamesDiffer declared)
    (hb : ofSlots config declared slots = .ok b)
    (hb' : ofSlots config declared (rearrange slots σ) = .ok b') :
    RearrangedAlike config slots σ b b' := by
  have hbound := wellBound_of_ofSlots hb
  have hbound' := wellBound_of_ofSlots hb'
  have hparams : ∀ i : Fin slots.length, b'.params[i.val]? = b.params[(σ i).val]? := by
    intro i
    rw [hbound'.target i (by simp), hbound.target (σ i) (σ i).isLt, target?_rearrange hσ]
  exact {
    aligned := ⟨hbound.aligned, by rw [hbound'.aligned, length_rearrange]⟩
    params := hparams
    positional := positional_of_perm rearrange_perm hb hb'
    maps := sameMaps_of_passed hb hb' hnames (variablesDiffer_of_perm rearrange_perm)
      (mem_passed_rearrange hparams) }

/-- **Named arguments may be written anywhere.** Let no two declared parameters share a name.
Arguments that are rearranged, the positional ones in their order, can be bound exactly when
they could be bound before, and then to the parameters that they had. -/
theorem bound_alike_when_rearranged (hσ : KeepsPositional slots σ) (hnames : NamesDiffer declared) :
    ((∃ b, ofSlots config declared slots = .ok b) ↔
        ∃ b', ofSlots config declared (rearrange slots σ) = .ok b') ∧
      ∀ b b', ofSlots config declared slots = .ok b →
        ofSlots config declared (rearrange slots σ) = .ok b' →
        RearrangedAlike config slots σ b b' := by
  have hperm : (rearrange slots σ).Perm slots := rearrange_perm
  have hiff := fun s => (ofSlots_meets_specification config declared s).1
  refine ⟨?_, fun b b' hb hb' => rearrangedAlike hσ hnames hb hb'⟩
  rw [hiff, hiff]
  exact ⟨bindable_of_perm hperm, bindable_of_perm hperm.symm⟩

/-- A named argument moves before two positional ones. -/
theorem bound_alike_when_rearranged_to_front :
    let declared : List Param :=
      [⟨0, "@a".toList, 1, .input⟩, ⟨1, "@b".toList, 2, .input⟩, ⟨2, "@c".toList, 3, .output⟩]
    let slots : List Slot :=
      [.positional "'x'".toList false, .named "@b".toList "5".toList false,
        .positional "@v".toList true]
    let σ : Equiv.Perm (Fin slots.length) := Equiv.swap 0 1
    KeepsPositional slots σ ∧ NamesDiffer declared ∧
      rearrange slots σ = [.named "@b".toList "5".toList false, .positional "'x'".toList false,
        .positional "@v".toList true] ∧
      ∃ b b', ofSlots .standard declared slots = .ok b ∧
        ofSlots .standard declared (rearrange slots σ) = .ok b' ∧
        RearrangedAlike .standard slots σ b b' := by
  intro declared slots σ
  have hσ : KeepsPositional slots σ := by
    unfold KeepsPositional
    decide
  have hnames : NamesDiffer declared := by decide
  have halike := @bound_alike_when_rearranged .standard declared slots σ hσ hnames
  obtain ⟨b, hb⟩ : ∃ b, ofSlots .standard declared slots = .ok b := ⟨_, rfl⟩
  obtain ⟨b', hb'⟩ := halike.1.1 ⟨b, hb⟩
  exact ⟨hσ, hnames, by decide, b, b', hb, hb', halike.2 b b' hb hb'⟩

end ProcCall.Binding
