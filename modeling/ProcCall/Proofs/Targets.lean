import ProcCall.Proofs.Runs

/-!
# A run against the targets

What a run chooses, said without an order: the named arguments go to the first parameters
of their names, the positional ones to the parameters that are left.

* `NormalNamesDiffer.resolve?_eq_some`: what a name finds when no two parameters share one.
* `chosen_named_iff`, `chosen_positional_iff`: the choices of each pass.
* `weave_pairs`: the pairs of arguments and parameters, when both passes are woven together.
-/

namespace ProcCall.Binding

open Outcome

variable {config : Config} {declared : List Param} {slots a b : List Slot}
  {taken params named positional : List Param} {p : Param}

/-! ## Names -/

/-- Whether every declared parameter is known from its name, as names are compared. -/
def NormalNamesDiffer (config : Config) (declared : List Param) : Prop :=
  ∀ p ∈ declared, ∀ q ∈ declared,
    config.normalizeName p.name = config.normalizeName q.name → p = q

/-- Any name that is compared alike finds a declared parameter then. -/
theorem NormalNamesDiffer.resolve?_eq_some {name : Text} (h : NormalNamesDiffer config declared)
    (hp : p ∈ declared) (hname : config.normalizeName p.name = config.normalizeName name) :
    resolve? config declared name = some p := by
  cases hfound : resolve? config declared name with
  | none =>
    have hnone := List.find?_eq_none.1 hfound p hp
    simp [hname] at hnone
  | some q =>
    have hq : config.normalizeName q.name = config.normalizeName name := by
      simpa using List.find?_some hfound
    rw [h q (List.mem_of_find?_eq_some hfound) p hp (hq.trans hname.symm)]

theorem namedTarget?_eq_none_iff {slot : Slot} : namedTarget? config declared slot = none ↔
    ∀ p ∈ declared, config.normalizeName p.name ≠ config.normalizeName (slot.name.getD []) := by
  simp [namedTarget?, resolve?, List.find?_eq_none]

/-! ## The choices of a run -/

theorem Chosen.length (h : Chosen config declared taken slots params) :
    params.length = slots.length := by
  induction h with
  | nil => rfl
  | cons _ _ ih => simp [ih]

theorem chosen_append : Chosen config declared taken (a ++ b) params ↔
    ∃ ps qs, params = ps ++ qs ∧ Chosen config declared taken a ps ∧
      Chosen config declared (ps.reverse ++ taken) b qs := by
  induction a generalizing taken params with
  | nil =>
    constructor
    · intro h; exact ⟨[], params, rfl, .nil _, h⟩
    · rintro ⟨ps, qs, rfl, h, hb⟩; cases h; exact hb
  | cons slot rest ih =>
    constructor
    · intro h
      cases h with
      | cons hp hr =>
        obtain ⟨ps, qs, rfl, ha, hb⟩ := ih.1 hr
        exact ⟨_ :: ps, qs, rfl, .cons hp ha, by simpa using hb⟩
    · rintro ⟨ps, qs, rfl, h, hb⟩
      cases h with
      | cons hp hr => exact .cons hp (ih.2 ⟨_, qs, rfl, hr, by simpa using hb⟩)

theorem choose_named {slot : Slot} (h : slot.isNamed = true) :
    choose config declared taken slot = .ok p ↔
      namedTarget? config declared slot = some p ∧ p ∉ taken := by
  unfold choose
  rw [if_pos h]
  cases namedTarget? config declared slot with
  | none => simp
  | some q =>
    simp only [Option.some.injEq]
    by_cases hq : taken.contains q = true
    · rw [if_pos hq]
      simp only [reduceCtorEq, false_iff, not_and, not_not]
      rintro rfl; simpa using hq
    · rw [if_neg hq, Except.ok.injEq]
      constructor
      · rintro rfl; exact ⟨rfl, by simpa using hq⟩
      · exact fun h => h.1

theorem choose_positional {slot : Slot} (h : slot.isNamed = false) :
    choose config declared taken slot = .ok p ↔ declared.find? (isFree taken) = some p := by
  unfold choose
  rw [if_neg (by simp [h])]
  cases declared.find? (isFree taken) <;> simp

/-- Named arguments choose the parameters of their names, as long as these differ. -/
theorem chosen_named_iff (h : ∀ slot ∈ slots, slot.isNamed = true) :
    Chosen config declared taken slots params ↔
      slots.map (namedTarget? config declared) = params.map some ∧ params.Nodup ∧
        ∀ p ∈ params, p ∉ taken := by
  induction slots generalizing taken params with
  | nil =>
    constructor
    · intro hc; cases hc; simp
    · rintro ⟨hm, -, -⟩
      obtain rfl : params = [] := by simpa using hm.symm
      exact .nil _
  | cons slot rest ih =>
    have hrest : ∀ x ∈ rest, x.isNamed = true := fun x hx => h x (List.mem_cons_of_mem _ hx)
    have hslot := h slot List.mem_cons_self
    constructor
    · intro hc
      cases hc with
      | cons hp hr =>
        obtain ⟨ht, hout⟩ := (choose_named hslot).1 hp
        obtain ⟨hm, hnd, hall⟩ := (ih hrest).1 hr
        refine ⟨by simp [ht, hm], List.nodup_cons.2 ⟨?_, hnd⟩, ?_⟩
        · intro hin; exact hall _ hin List.mem_cons_self
        · intro q hq
          rcases List.mem_cons.1 hq with rfl | hq
          · exact hout
          · exact fun hc => hall q hq (List.mem_cons_of_mem _ hc)
    · rintro ⟨hm, hnd, hall⟩
      cases params with
      | nil => simp at hm
      | cons p others =>
        simp only [List.map_cons, List.cons.injEq] at hm
        obtain ⟨hp, hnd⟩ := List.nodup_cons.1 hnd
        refine .cons ((choose_named hslot).2 ⟨hm.1, hall p List.mem_cons_self⟩)
          ((ih hrest).2 ⟨hm.2, hnd, ?_⟩)
        intro q hq hc
        rcases List.mem_cons.1 hc with rfl | hc
        · exact hp hq
        · exact hall q (List.mem_cons_of_mem _ hq) hc

/-- The parameters that positional arguments may go to: each declared one once, without
return values and taken ones. -/
def remaining (declared taken : List Param) : List Param :=
  (declared.filter (isFree taken)).eraseDups

theorem remaining_of_none (h : declared.find? (isFree taken) = none) :
    remaining declared taken = [] := by
  unfold remaining
  rw [List.filter_eq_nil_iff.2 (by simpa using List.find?_eq_none.1 h)]
  rfl

/-- The first free parameter heads those that remain; taking it leaves the others. -/
theorem remaining_of_some (h : declared.find? (isFree taken) = some p) :
    remaining declared taken = p :: remaining declared (p :: taken) := by
  have hhead : (declared.filter (isFree taken)).head? = some p := by rw [List.head?_filter, h]
  obtain ⟨others, hfree⟩ : ∃ others, declared.filter (isFree taken) = p :: others := by
    cases hf : declared.filter (isFree taken) with
    | nil => rw [hf] at hhead; cases hhead
    | cons q others => rw [hf] at hhead; cases hhead; exact ⟨others, rfl⟩
  -- to be free when `p` is taken too is to be free and not `p`
  have hstep : ∀ q, isFree (p :: taken) q = (isFree taken q && !q == p) := by
    intro q
    simp only [isFree, List.contains_cons, Bool.not_or]
    cases q.isReturnValue <;> cases taken.contains q <;> cases q == p <;> rfl
  have hothers : declared.filter (isFree (p :: taken)) = others.filter (!· == p) := by
    have hsame : declared.filter (isFree (p :: taken)) =
        (declared.filter (isFree taken)).filter (!· == p) := by
      rw [List.filter_filter]
      exact List.filter_congr fun q _ => by rw [hstep, Bool.and_comm]
    rw [hsame, hfree, List.filter_cons_of_neg (by simp)]
  unfold remaining
  rw [hothers, hfree, List.eraseDups_cons]

/-- Positional arguments choose the parameters that remain, in declared order. -/
theorem chosen_positional_iff (h : ∀ slot ∈ slots, slot.isNamed = false) :
    Chosen config declared taken slots params ↔
      params = (remaining declared taken).take slots.length ∧
        slots.length ≤ (remaining declared taken).length := by
  induction slots generalizing taken params with
  | nil =>
    constructor
    · intro hc; cases hc; simp
    · rintro ⟨rfl, -⟩; exact .nil _
  | cons slot rest ih =>
    have hrest : ∀ x ∈ rest, x.isNamed = false := fun x hx => h x (List.mem_cons_of_mem _ hx)
    have hslot := h slot List.mem_cons_self
    cases hf : declared.find? (isFree taken) with
    | none =>
      rw [remaining_of_none hf]
      constructor
      · intro hc
        cases hc with
        | cons hp _ => rw [choose_positional hslot, hf] at hp; cases hp
      · rintro ⟨-, hl⟩; simp at hl
    | some p =>
      rw [remaining_of_some hf]
      simp only [List.length_cons, List.take_succ_cons, Nat.add_le_add_iff_right]
      constructor
      · intro hc
        cases hc with
        | cons hp hr =>
          rw [choose_positional hslot, hf] at hp
          cases hp
          obtain ⟨rfl, hl⟩ := (ih hrest).1 hr
          exact ⟨rfl, hl⟩
      · rintro ⟨rfl, hl⟩
        exact .cons ((choose_positional hslot).2 hf) ((ih hrest).2 ⟨rfl, hl⟩)

/-! ## Pairs of arguments and parameters -/

theorem weave_pairs (hn : named.length = (slots.filter (·.isNamed)).length)
    (hp : positional.length = (slots.filter (!·.isNamed)).length) :
    (weave slots named positional).length = slots.length ∧
      (slots.zip (weave slots named positional)).filter (·.1.isNamed) =
        (slots.filter (·.isNamed)).zip named ∧
      (slots.zip (weave slots named positional)).filter (!·.1.isNamed) =
        (slots.filter (!·.isNamed)).zip positional := by
  induction slots generalizing named positional with
  | nil =>
    obtain rfl : named = [] := List.eq_nil_of_length_eq_zero hn
    obtain rfl : positional = [] := List.eq_nil_of_length_eq_zero hp
    exact ⟨rfl, rfl, rfl⟩
  | cons slot rest ih =>
    by_cases h : slot.isNamed = true
    · rw [List.filter_cons_of_pos h] at hn ⊢
      rw [List.filter_cons_of_neg (by simp [h])] at hp ⊢
      cases named with
      | nil => simp at hn
      | cons p others =>
        obtain ⟨hl, h1, h2⟩ := ih (by simpa using hn) hp
        simp [weave, h, hl, h1, h2]
    · rw [List.filter_cons_of_neg h] at hn ⊢
      rw [List.filter_cons_of_pos (by simp [h])] at hp ⊢
      cases positional with
      | nil => simp at hp
      | cons p others =>
        obtain ⟨hl, h1, h2⟩ := ih hn (by simpa using hp)
        simp [weave, h, hl, h1, h2]

/-- A list is cut before and after each of its elements. -/
theorem eq_take_append_cons_drop {α : Type} {l : List α} {i : Nat} {x : α} (h : l[i]? = some x) :
    l = l.take i ++ x :: l.drop (i + 1) := by
  obtain ⟨hi, rfl⟩ := List.getElem?_eq_some_iff.1 h
  rw [← List.drop_eq_getElem_cons hi, List.take_append_drop]

/-- An element that a filter keeps stands in the filtered list where the kept ones before
it end. -/
theorem getElem?_filter_rank {α : Type} (keep : α → Bool) {l : List α} {i : Nat} {x : α}
    (h : l[i]? = some x) (hx : keep x = true) :
    (l.filter keep)[((l.take i).filter keep).length]? = some x := by
  have hsplit : l.filter keep = (l.take i).filter keep ++ x :: (l.drop (i + 1)).filter keep := by
    conv_lhs => rw [eq_take_append_cons_drop h]
    rw [List.filter_append, List.filter_cons_of_pos hx]
  rw [hsplit, List.getElem?_append_right (le_refl _), Nat.sub_self]
  rfl

theorem rank_zip (h : params.length = slots.length) (i : Nat) :
    (((slots.zip params).take i).filter (!·.1.isNamed)).length = rank slots i := by
  have hfst : ((slots.zip params).take i).map (·.1) = slots.take i := by
    rw [List.map_take, List.map_fst_zip (by omega)]
  unfold rank
  rw [← hfst, List.filter_map, List.length_map]
  rfl

theorem eq_of_mem_zip_map {α β γ : Type} {f : α → γ} {g : β → γ} {l : List α} {l' : List β}
    (h : l.map f = l'.map g) {x : α} {y : β} (hxy : (x, y) ∈ l.zip l') : f x = g y := by
  obtain ⟨i, hi, heq⟩ := List.getElem_of_mem hxy
  simp only [List.getElem_zip, Prod.mk.injEq] at heq
  obtain ⟨rfl, rfl⟩ := heq
  have hl := congrArg (·[i]?) h
  simp only [List.length_zip] at hi
  simpa [List.getElem?_eq_getElem (show i < l.length by omega),
    List.getElem?_eq_getElem (show i < l'.length by omega)] using hl

end ProcCall.Binding
