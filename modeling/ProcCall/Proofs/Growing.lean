import ProcCall.Proofs.Targets

/-!
# Growing the declared parameters

A procedure gets further parameters. Calls that could be bound before are bound as before,
as long as the new parameters stand at the end or are return values that no named argument of
the call means.

* `Grown`: a list of declared parameters and what it may grow into.
* `choose_of_grown`: what one argument chooses is kept.
* `chosen_of_grown`, `run_of_grown`: what all arguments choose is kept, one after another.
* `bound_when_grown`: the binding is kept.
-/

namespace ProcCall.Binding

/-- Whether a parameter is **idle** in a call: it carries a return value, and no named
argument of the call has its name. -/
def Idle (config : Config) (slots : List Slot) (p : Param) : Prop :=
  p.isReturnValue = true ∧ ∀ slot ∈ slots, slot.isNamed = true →
    config.normalizeName p.name ≠ config.normalizeName (slot.name.getD [])

/-- What a list of parameters may **grow** into: idle parameters come in anywhere, and any
parameters at the end. -/
inductive Grown (idle : Param → Prop) : (declared grown : List Param) → Prop
  | appended (further : List Param) : Grown idle [] further
  | kept {declared grown : List Param} (p : Param) : Grown idle declared grown →
      Grown idle (p :: declared) (p :: grown)
  | inserted {declared grown : List Param} {p : Param} : idle p → Grown idle declared grown →
      Grown idle declared (p :: grown)

variable {config : Config} {declared grown : List Param} {slots rest : List Slot} {slot : Slot}
  {taken params : List Param} {p : Param} {b : Binding}

/-- A search that passes over idle parameters still finds what it found. -/
theorem Grown.find?_eq_some {idle : Param → Prop} {search : Param → Bool}
    (h : Grown idle declared grown) (hidle : ∀ p, idle p → search p = false)
    (hp : declared.find? search = some p) : grown.find? search = some p := by
  induction h with
  | appended further => cases hp
  | kept q _ ih =>
    rw [List.find?_cons] at hp ⊢
    cases hq : search q with
    | true => rw [hq] at hp; exact hp
    | false => rw [hq] at hp; exact ih hp
  | @inserted _ _ q hq _ ih =>
    rw [List.find?_cons, hidle q hq]
    exact ih hp

/-- **One argument** chooses the parameter that it chose before. -/
theorem choose_of_grown (hg : Grown (Idle config slots) declared grown) (hin : slot ∈ slots)
    (hp : choose config declared taken slot = .ok p) :
    choose config grown taken slot = .ok p := by
  by_cases hs : slot.isNamed = true
  · -- an idle parameter has another name
    obtain ⟨htarget, hfree⟩ := (choose_named hs).1 hp
    refine (choose_named hs).2 ⟨hg.find?_eq_some (fun q hq => ?_) htarget, hfree⟩
    simpa using hq.2 slot hin hs
  · -- an idle parameter carries a return value, so it is never free
    have hs : slot.isNamed = false := by simpa using hs
    have hfind := (choose_positional hs).1 hp
    refine (choose_positional hs).2 (hg.find?_eq_some (fun q hq => ?_) hfind)
    simp [isFree, hq.1]

/-- **All arguments** choose the parameters that they chose before. -/
theorem chosen_of_grown (hg : Grown (Idle config slots) declared grown)
    (hin : ∀ slot ∈ rest, slot ∈ slots) (hc : Chosen config declared taken rest params) :
    Chosen config grown taken rest params := by
  induction hc with
  | nil taken => exact .nil taken
  | cons hp _ ih =>
    exact .cons (choose_of_grown hg (hin _ List.mem_cons_self) hp)
      (ih fun slot hs => hin slot (List.mem_cons_of_mem _ hs))

/-- **A run** that succeeds gives and records what it did before, since it records what is
chosen. -/
theorem run_of_grown {s last : State} (hg : Grown (Idle config slots) declared grown)
    (hin : ∀ slot ∈ rest, slot ∈ slots) (hr : run config declared s rest = .ok (params, last)) :
    run config grown s rest = .ok (params, last) := by
  obtain ⟨hc, hrecorded⟩ := run_eq_ok_iff.1 hr
  exact run_eq_ok_iff.2 ⟨chosen_of_grown hg hin hc, hrecorded⟩

/-- **Growing the declared parameters keeps a binding.** A call that can be bound is bound
when parameters of any kind are added at the end and idle ones anywhere, and only the table
of all declared parameters is another one then. -/
theorem bound_when_grown (hg : Grown (Idle config slots) declared grown)
    (h : ofSlots config declared slots = .ok b) : ofSlots config grown slots =
      .ok { b with declared := Table.ofPairs (grown.map fun p => (p.name, p)) } := by
  obtain ⟨named, mid, positional, last, hn, hp, rfl⟩ := ofSlots_eq_ok_iff_run.1 h
  have hnamed := run_of_grown hg (fun _ hs => (List.mem_filter.1 hs).1) hn
  have hpositional := run_of_grown hg (fun _ hs => (List.mem_filter.1 hs).1) hp
  exact ofSlots_eq_ok_iff_run.2 ⟨named, mid, positional, last, hnamed, hpositional, rfl⟩

/-- Return values come in before and between the parameters, and a parameter with a name that
is known already comes in at the end. -/
theorem bound_when_grown_to_five :
    let a : Param := ⟨0, "@a".toList, 1, .input⟩
    let b : Param := ⟨1, "@b".toList, 2, .output⟩
    let result : Param := ⟨2, "@result".toList, 0, .returnValue⟩
    let status : Param := ⟨3, "@A".toList, 0, .returnValue⟩
    let again : Param := ⟨4, "@B".toList, 3, .input⟩
    let slots : List Slot := [.positional "'x'".toList false, .named "b".toList "@v".toList true]
    Grown (Idle .standard slots) [a, b] [result, a, status, b, again] ∧
      ∃ bound, ofSlots .standard [a, b] slots = .ok bound ∧
        ofSlots .standard [result, a, status, b, again] slots = .ok { bound with
          declared := [("@result".toList, result), ("@a".toList, a), ("@A".toList, status),
            ("@b".toList, b), ("@B".toList, again)] } := by
  intro a b result status again slots
  have hidle : ∀ p : Param, p.isReturnValue = true →
      Config.standard.normalizeName p.name ≠ Config.standard.normalizeName "b".toList →
      Idle .standard slots p := by
    intro p hp hname
    refine ⟨hp, fun slot hslot hnamed => ?_⟩
    rcases List.mem_cons.1 hslot with rfl | hslot
    · cases hnamed
    · rw [List.mem_singleton.1 hslot]; exact hname
  have hg : Grown (Idle .standard slots) [a, b] [result, a, status, b, again] :=
    .inserted (hidle result rfl (by decide)) <| .kept a <|
      .inserted (hidle status rfl (by decide)) <| .kept b <| .appended [again]
  obtain ⟨bound, hbound⟩ : ∃ bound, ofSlots .standard [a, b] slots = .ok bound := ⟨_, rfl⟩
  exact ⟨hg, bound, hbound, bound_when_grown hg hbound⟩

end ProcCall.Binding
