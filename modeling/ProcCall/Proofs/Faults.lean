import ProcCall.Proofs.Faithful

/-!
# Which fault is reported

Binding stops at the first argument, in binding order, that has no parameter to go to or
whose value is no literal. What is wrong with that argument is said without the run: by the
names of the declared parameters, the arguments before it and the number of free parameters.

* `Sound`: an argument passes all its checks.
* `Faulty`: what is wrong with an argument, with one constructor for each check.
* `exists_chosen_iff`: arguments choose parameters as long as each of them has a place.
* `faulty_iff`: where one argument fails, once those before it are bound.
* `fails_at_first_fault`: the failures of binding.
-/

namespace ProcCall

/-- Whether a cause **concerns** a parameter: it is reported as that fault of the binding,
with the given text. -/
def Error.Concerns (e : Error) (fault : BindingFault) (parameter : Text) : Prop :=
  ∃ r, e.report? = some r ∧ r.topic = .binding fault (some parameter)

/-- The cause that is reported as a fault of the binding. -/
def Error.ofFault (parameter : Text) : BindingFault → Error
  | .duplicateName => .repeatedParameter parameter
  | .unknownName => .unknownParameter parameter
  | .insufficientParameters => .tooManyArguments parameter

theorem Error.concerns_iff {e : Error} {fault : BindingFault} {parameter : Text} :
    e.Concerns fault parameter ↔ e = Error.ofFault parameter fault := by
  constructor
  · rintro ⟨r, hr, ht⟩
    cases e <;> cases hr <;> cases ht <;> rfl
  · rintro rfl
    cases fault <;> exact ⟨_, rfl, rfl⟩

namespace Binding

open Outcome

/-- Whether an argument **has a place** after the given ones: a named one has a parameter of
its name that none of them has taken, and enough parameters are free for a positional one and
those before it. -/
structure HasPlace (config : Config) (declared : List Param) (slots before : List Slot)
    (slot : Slot) : Prop where
  known : slot.isNamed = true → ∃ p, namedTarget? config declared slot = some p ∧
    ∀ s ∈ before, s.isNamed = true → namedTarget? config declared s ≠ some p
  enough : slot.isNamed = false →
    (before.filter (!·.isNamed)).length + 1 ≤ (freeParams config declared slots).length

/-- Whether an argument passes **all its checks** after the given ones. -/
structure Sound (config : Config) (declared : List Param) (slots before : List Slot)
    (slot : Slot) : Prop where
  place : HasPlace config declared slots before slot
  value : Evaluable config slot.value

/-- What is **wrong** with an argument after the given ones. A check comes to its turn only
when those above it are passed. -/
inductive Faulty (config : Config) (declared : List Param) (slots before : List Slot)
    (slot : Slot) : Error → Prop
  /-- No declared parameter has its name. -/
  | unknown {e : Error} : slot.isNamed = true →
      (∀ p ∈ declared, config.normalizeName p.name ≠ config.normalizeName (slot.name.getD [])) →
      e.Concerns .unknownName (slot.name.getD []) → Faulty config declared slots before slot e
  /-- An argument before it has the same parameter. -/
  | repeated {e : Error} {p : Param} {earlier : Slot} : slot.isNamed = true →
      namedTarget? config declared slot = some p → earlier ∈ before → earlier.isNamed = true →
      namedTarget? config declared earlier = some p →
      e.Concerns .duplicateName (slot.name.getD []) → Faulty config declared slots before slot e
  /-- No free parameter is left. -/
  | surplus {e : Error} : slot.isNamed = false →
      (freeParams config declared slots).length < (before.filter (!·.isNamed)).length + 1 →
      e.Concerns .insufficientParameters slot.value → Faulty config declared slots before slot e
  /-- Its value is neither a variable nor a literal. -/
  | value {e : Error} : HasPlace config declared slots before slot →
      config.isVariable slot.value = false → Literal.ofText slot.value = .error e →
      Faulty config declared slots before slot e

variable {config : Config} {declared : List Param} {slots before after : List Slot} {slot : Slot}
  {taken params : List Param} {p : Param} {e : Error}

/-! ## Binding order -/

/-- Before a named argument there are only named ones, and before a positional one there are
all the named ones. -/
theorem bindingOrder_cases (h : bindingOrder slots = before ++ slot :: after) :
    (slot.isNamed = true ∧ ∀ s ∈ before, s.isNamed = true) ∨
      slot.isNamed = false ∧ ∃ earlier, before = slots.filter (·.isNamed) ++ earlier ∧
        ∀ s ∈ earlier, s.isNamed = false := by
  have hpositional : ∀ s ∈ slots.filter (!·.isNamed), s.isNamed = false := fun s hs => by
    simpa using (List.mem_filter.1 hs).2
  unfold bindingOrder inOrder at h
  rcases List.append_eq_append_iff.1 h with ⟨earlier, rfl, hc⟩ | ⟨rest, hn, hc⟩
  · refine .inr ⟨hpositional slot ?_, earlier, rfl, fun s hs => hpositional s ?_⟩
    · rw [hc]; exact List.mem_append_right _ List.mem_cons_self
    · rw [hc]; exact List.mem_append_left _ hs
  · cases rest with
    | nil =>
      refine .inr ⟨hpositional slot ?_, [], by rw [hn]; simp, by simp⟩
      rw [← List.nil_append (slots.filter _), ← hc]
      exact List.mem_cons_self
    | cons first others =>
      cases hc
      have hnamed : ∀ s ∈ before ++ slot :: others, s.isNamed = true := fun s hs =>
        (List.mem_filter.1 (hn ▸ hs)).2
      exact .inl ⟨hnamed slot (by simp), fun s hs => hnamed s (List.mem_append_left _ hs)⟩

/-! ## The place of one argument -/

theorem hasPlace_named_iff (hs : slot.isNamed = true) :
    HasPlace config declared slots before slot ↔ ∃ p, namedTarget? config declared slot = some p ∧
      ∀ s ∈ before, s.isNamed = true → namedTarget? config declared s ≠ some p :=
  ⟨fun h => h.known hs, fun h => ⟨fun _ => h, fun hn => by simp [hs] at hn⟩⟩

theorem hasPlace_positional_iff (hs : slot.isNamed = false) :
    HasPlace config declared slots before slot ↔
      (before.filter (!·.isNamed)).length + 1 ≤ (freeParams config declared slots).length :=
  ⟨fun h => h.enough hs, fun h => ⟨fun hn => by simp [hs] at hn, fun _ => h⟩⟩

/-- What positional arguments choose stood at the head of what remained. -/
theorem remaining_of_chosen (h : Chosen config declared taken slots params)
    (hs : ∀ slot ∈ slots, slot.isNamed = false) :
    remaining declared taken = params ++ remaining declared (params.reverse ++ taken) := by
  induction h with
  | nil => rfl
  | cons hp _ ih =>
    have hfind := (choose_positional (hs _ List.mem_cons_self)).1 hp
    rw [remaining_of_some hfind, ih fun x hx => hs x (List.mem_cons_of_mem _ hx)]
    simp

theorem exists_find?_iff_remaining :
    (∃ p, declared.find? (isFree taken) = some p) ↔ 0 < (remaining declared taken).length := by
  cases h : declared.find? (isFree taken) with
  | none => simp [remaining_of_none h]
  | some p => simp [remaining_of_some h]

/-- What named arguments have taken are the parameters of their names. -/
theorem mem_chosen_named_iff (hbefore : ∀ s ∈ before, s.isNamed = true)
    (hc : Chosen config declared [] before params) :
    p ∈ params ↔ ∃ s ∈ before, namedTarget? config declared s = some p := by
  rw [← List.mem_map, ((chosen_named_iff hbefore).1 hc).1]
  simp

/-- **One argument finds a parameter** exactly when it has a place, once those before it have
chosen theirs. -/
theorem exists_choose_iff (h : bindingOrder slots = before ++ slot :: after)
    (hc : Chosen config declared [] before params) :
    (∃ p, choose config declared params.reverse slot = .ok p) ↔
      HasPlace config declared slots before slot := by
  rcases bindingOrder_cases h with ⟨hs, hbefore⟩ | ⟨hs, earlier, rfl, hearlier⟩
  · simp only [hasPlace_named_iff hs, choose_named hs, List.mem_reverse,
      mem_chosen_named_iff hbefore hc]
    constructor
    · rintro ⟨p, hp, hfree⟩
      exact ⟨p, hp, fun s hin _ heq => hfree ⟨s, hin, heq⟩⟩
    · rintro ⟨p, hp, hfree⟩
      exact ⟨p, hp, fun ⟨s, hin, heq⟩ => hfree s hin (hbefore s hin) heq⟩
  · -- the named arguments have taken their parameters, so the free ones remain
    obtain ⟨named, others, rfl, hn, ho⟩ := chosen_append.1 hc
    have htargets := ((chosen_named_iff fun s hs => (List.mem_filter.1 hs).2).1 hn).1
    rw [List.append_nil] at ho
    have hremaining := remaining_of_chosen ho hearlier
    rw [remaining_eq_freeParams htargets] at hremaining
    have hcount : ((slots.filter (·.isNamed) ++ earlier).filter (!·.isNamed)).length =
        others.length := by
      have hnone : (slots.filter (·.isNamed)).filter (!·.isNamed) = [] :=
        List.filter_eq_nil_iff.2 fun s hs => by simp [(List.mem_filter.1 hs).2]
      have hall : earlier.filter (!·.isNamed) = earlier :=
        List.filter_eq_self.2 (by simpa using hearlier)
      rw [List.filter_append, hnone, hall, ho.length]
      rfl
    have hlen := congrArg List.length hremaining
    rw [List.length_append] at hlen
    rw [hasPlace_positional_iff hs]
    simp only [choose_positional hs, exists_find?_iff_remaining, List.reverse_append]
    omega

/-- Arguments in binding order choose parameters as long as each of them has a place. -/
theorem exists_chosen_iff (config : Config) (declared : List Param) (slots : List Slot) (k : Nat) :
    (∃ params, Chosen config declared [] ((bindingOrder slots).take k) params) ↔
      ∀ i < k, ∀ s, (bindingOrder slots)[i]? = some s →
        HasPlace config declared slots ((bindingOrder slots).take i) s := by
  induction k with
  | zero => simpa using ⟨[], Chosen.nil []⟩
  | succ k ih =>
    rw [Nat.forall_lt_succ_right, ← ih, List.take_add_one]
    cases hk : (bindingOrder slots)[k]? with
    | none => simp
    | some slot =>
      have hcut := eq_take_append_cons_drop hk
      simp only [Option.toList_some, Option.some.injEq, forall_eq']
      constructor
      · rintro ⟨params, h⟩
        obtain ⟨ps, qs, -, hps, hqs⟩ := chosen_append.1 h
        rw [List.append_nil] at hqs
        cases hqs with
        | @cons _ _ _ _ p hp _ => exact ⟨⟨ps, hps⟩, (exists_choose_iff hcut hps).1 ⟨p, hp⟩⟩
      · rintro ⟨⟨ps, hps⟩, hplace⟩
        obtain ⟨p, hp⟩ := (exists_choose_iff hcut hps).2 hplace
        exact ⟨ps ++ [p], chosen_append.2
          ⟨ps, [p], rfl, hps, .cons (by rw [List.append_nil]; exact hp) (.nil _)⟩⟩

/-! ## The fault of one argument -/

theorem choose_named_eq_error_iff (hs : slot.isNamed = true) :
    choose config declared taken slot = .error e ↔
      (namedTarget? config declared slot = none ∧ e = .unknownParameter (slot.name.getD [])) ∨
        ∃ p, namedTarget? config declared slot = some p ∧ p ∈ taken ∧
          e = .repeatedParameter (slot.name.getD []) := by
  unfold choose
  rw [if_pos hs]
  cases namedTarget? config declared slot with
  | none => simp [eq_comm]
  | some p =>
    by_cases hp : p ∈ taken
    · simp [hp, eq_comm]
    · simp [hp]

theorem choose_positional_eq_error_iff (hs : slot.isNamed = false) :
    choose config declared taken slot = .error e ↔
      (∀ p, choose config declared taken slot ≠ .ok p) ∧ e = .tooManyArguments slot.value := by
  unfold choose
  rw [if_neg (by simp [hs])]
  cases declared.find? (isFree taken) <;> simp [eq_comm]

/-- An argument that cannot choose is faulty. -/
theorem faulty_of_choose_eq_error (h : bindingOrder slots = before ++ slot :: after)
    (hc : Chosen config declared [] before params)
    (hfail : choose config declared params.reverse slot = .error e) :
    Faulty config declared slots before slot e := by
  rcases bindingOrder_cases h with ⟨hs, hbefore⟩ | ⟨hs, -⟩
  · rcases (choose_named_eq_error_iff hs).1 hfail with ⟨hnone, rfl⟩ | ⟨p, hp, hin, rfl⟩
    · exact .unknown hs (namedTarget?_eq_none_iff.1 hnone) (Error.concerns_iff.2 rfl)
    · obtain ⟨earlier, hearlier, heq⟩ :=
        (mem_chosen_named_iff hbefore hc).1 (List.mem_reverse.1 hin)
      exact .repeated hs hp hearlier (hbefore _ hearlier) heq (Error.concerns_iff.2 rfl)
  · obtain ⟨hnone, rfl⟩ := (choose_positional_eq_error_iff hs).1 hfail
    refine .surplus hs (Nat.lt_of_not_le fun henough => ?_) (Error.concerns_iff.2 rfl)
    obtain ⟨p, hp⟩ := (exists_choose_iff h hc).2 ((hasPlace_positional_iff hs).2 henough)
    exact hnone p hp

/-- **How one argument fails**, once those before it have chosen their parameters: it cannot
choose, or its value is neither a variable nor a literal. -/
theorem faulty_iff (h : bindingOrder slots = before ++ slot :: after)
    (hc : Chosen config declared [] before params) :
    (choose config declared params.reverse slot = .error e ∨
      ∃ p, choose config declared params.reverse slot = .ok p ∧
        config.isVariable slot.value = false ∧ Literal.ofText slot.value = .error e) ↔
    Faulty config declared slots before slot e := by
  have hplace := exists_choose_iff h hc
  constructor
  · rintro (hfail | ⟨p, hp, hvar, hlit⟩)
    · exact faulty_of_choose_eq_error h hc hfail
    · exact .value (hplace.1 ⟨p, hp⟩) hvar hlit
  · intro hfault
    cases hfault with
    | unknown hs hnone he =>
      exact .inl ((choose_named_eq_error_iff hs).2
        (.inl ⟨namedTarget?_eq_none_iff.2 hnone, Error.concerns_iff.1 he⟩))
    | @repeated p earlier hs hp hearlier _ heq he =>
      rcases bindingOrder_cases h with ⟨-, hbefore⟩ | ⟨hpos, -⟩
      · have hin := (mem_chosen_named_iff hbefore hc).2 ⟨earlier, hearlier, heq⟩
        exact .inl ((choose_named_eq_error_iff hs).2
          (.inr ⟨p, hp, List.mem_reverse.2 hin, Error.concerns_iff.1 he⟩))
      · rw [hs] at hpos; cases hpos
    | surplus hs hfew he =>
      refine .inl ((choose_positional_eq_error_iff hs).2 ⟨fun p hp => ?_, Error.concerns_iff.1 he⟩)
      have henough := (hasPlace_positional_iff hs).1 (hplace.1 ⟨p, hp⟩)
      omega
    | value hp hvar hlit =>
      obtain ⟨p, hp⟩ := hplace.2 hp
      exact .inr ⟨p, hp, hvar, hlit⟩

/-- **Binding fails at the first fault.** It fails exactly when, in binding order, some
argument is faulty after ones that pass all their checks, and it fails with what is wrong
with that argument. -/
theorem fails_at_first_fault (config : Config) (declared : List Param) (slots : List Slot)
    (e : Error) : ofSlots config declared slots = .error e ↔
      ∃ k slot, (bindingOrder slots)[k]? = some slot ∧
        (∀ i < k, ∀ s, (bindingOrder slots)[i]? = some s →
          Sound config declared slots ((bindingOrder slots).take i) s) ∧
        Faulty config declared slots ((bindingOrder slots).take k) slot e := by
  rw [ofSlots_eq_error_iff_run, run_eq_error_iff]
  constructor
  · -- the arguments that the run has bound are those before the one with number `k`
    rintro ⟨before, slot, after, params, mid, horder, hrun, hfail⟩
    obtain ⟨hc, heval, rfl⟩ := run_eq_ok_iff.1 hrun
    rw [taken_record_zip hc.length] at hfail
    simp only [assign_eq_error_iff] at hfail
    have htake : (bindingOrder slots).take before.length = before := by
      rw [horder, List.take_left]
    have hplaces := (exists_chosen_iff config declared slots before.length).1
      ⟨params, by rw [htake]; exact hc⟩
    refine ⟨before.length, slot, ?_, ?_, ?_⟩
    · rw [horder, List.getElem?_append_right (le_refl _), Nat.sub_self]; rfl
    · intro i hi s hs
      refine ⟨hplaces i hi s hs, heval s ?_⟩
      rw [horder, List.getElem?_append_left hi] at hs
      exact List.mem_of_getElem? hs
    · rw [htake]; exact (faulty_iff horder hc).1 hfail
  · rintro ⟨k, slot, hk, hsound, hfault⟩
    have horder := eq_take_append_cons_drop hk
    obtain ⟨params, hc⟩ := (exists_chosen_iff config declared slots k).2
      fun i hi s hs => (hsound i hi s hs).place
    have heval : ∀ s ∈ (bindingOrder slots).take k, Evaluable config s.value := by
      intro s hs
      obtain ⟨i, hi, rfl⟩ := List.mem_take_iff_getElem.1 hs
      exact (hsound i (by omega) _ (List.getElem?_eq_getElem (by omega))).value
    refine ⟨_, slot, _, params, _, horder, run_eq_ok_iff.2 ⟨hc, heval, rfl⟩, ?_⟩
    rw [taken_record_zip hc.length]
    simp only [assign_eq_error_iff]
    exact (faulty_iff horder hc).2 hfault

end Binding

end ProcCall
