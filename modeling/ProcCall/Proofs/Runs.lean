import ProcCall.Binding.Target
import ProcCall.Proofs.Outcomes
import ProcCall.Proofs.Tables
import Mathlib.Data.List.TakeWhile

/-!
# Binding as one run

Arguments are bound in two passes, the second with a cursor over the declared
parameters. Both are one **run** over the arguments in binding order, which knows only
which parameters are taken: each argument chooses a parameter (`choose`) and its value is
recorded (`State.record`).

* `ofSlots_eq_run`: binding is the run over the arguments in binding order.
* `run_eq_ok_iff`: a run succeeds exactly when every argument has a parameter to choose
  and every value that is no variable is a literal; then it has recorded all of them.
* `run_eq_error_iff`: a run fails at the first argument that cannot choose or whose value
  is no literal.
-/

namespace ProcCall.Binding

open Outcome

/-- The elements of a list in binding order: the named ones come first. -/
def inOrder {α : Type} (isNamed : α → Bool) (l : List α) : List α :=
  l.filter isNamed ++ l.filter (!isNamed ·)

/-- Arguments in the order in which they are bound. -/
def bindingOrder (slots : List Slot) : List Slot := inOrder Slot.isNamed slots

variable (config : Config) (declared : List Param)

/-- Whether a value can be recorded: a variable can, and any other value if it is a
literal. -/
def Evaluable (value : Text) : Prop :=
  config.isVariable value = false → ∃ l, Literal.ofText value = .ok l

/-- The state before any argument is bound. -/
def State.empty : State := ⟨[], [], []⟩

/-- What is recorded for an argument whose value is a variable. -/
def variableRecord? (pair : Slot × Param) : Option (Text × Param) :=
  if config.isVariable pair.1.value then some (pair.1.value, pair.2) else none

/-- What is recorded for an argument whose value is a literal. -/
def literalRecord? (pair : Slot × Param) : Option (Text × Literal) :=
  if config.isVariable pair.1.value then none
  else (Literal.ofText pair.1.value).toOption.map (pair.2.name, ·)

/-- The state after arguments with their parameters are recorded. -/
def State.record (s : State) (pairs : List (Slot × Param)) : State where
  taken := (pairs.map (·.2)).reverse ++ s.taken
  byVariable := (pairs.filterMap (variableRecord? config)).foldl
    (fun t entry => t.put entry.1 entry.2) s.byVariable
  values := (pairs.filterMap (literalRecord? config)).foldl
    (fun t entry => t.put entry.1 entry.2) s.values

/-- The parameter that an argument goes to when some parameters are taken. -/
def choose (taken : List Param) (slot : Slot) : Except Error Param :=
  if slot.isNamed then
    match namedTarget? config declared slot with
    | none => .error (.unknownParameter (slot.name.getD []))
    | some p =>
      if taken.contains p then .error (.repeatedParameter (slot.name.getD [])) else .ok p
  else
    match declared.find? (isFree taken) with
    | none => .error (.tooManyArguments slot.value)
    | some p => .ok p

/-- Arguments bound one after another: their parameters and the state after them. -/
def run (s : State) : List Slot → Except Error (List Param × State)
  | [] => .ok ([], s)
  | slot :: rest => do
    let p ← choose config declared s.taken slot
    let (params, last) ← run (← s.assign config slot.value p) rest
    .ok (p :: params, last)

/-- The parameters that arguments choose one after another, each when those before it
are taken. -/
inductive Chosen : List Param → List Slot → List Param → Prop
  | nil (taken : List Param) : Chosen taken [] []
  | cons {taken params : List Param} {slot : Slot} {rest : List Slot} {p : Param} :
      choose config declared taken slot = .ok p → Chosen (p :: taken) rest params →
      Chosen taken (slot :: rest) (p :: params)

variable {config declared} {s last : State} {slots rest : List Slot} {slot : Slot}
  {taken params : List Param} {p : Param}

/-- What stands at the start of a list in binding order is in binding order. -/
theorem inOrder_of_prefix {α : Type} {isNamed : α → Bool} {l a b : List α}
    (h : inOrder isNamed l = a ++ b) : inOrder isNamed a = a := by
  unfold inOrder at h ⊢
  rcases List.append_eq_append_iff.1 h with ⟨c, rfl, hc⟩ | ⟨c, hc, -⟩
  · -- the start ends among the positional ones
    have hpositional : ∀ x ∈ c, isNamed x = false := by
      intro x hx
      have hin : x ∈ l.filter (!isNamed ·) := by rw [hc]; exact List.mem_append_left _ hx
      simpa using (List.mem_filter.1 hin).2
    have hnone : c.filter isNamed = [] := List.filter_eq_nil_iff.2 (by simpa using hpositional)
    have hall : c.filter (!isNamed ·) = c := List.filter_eq_self.2 (by simpa using hpositional)
    simp [hnone, hall]
  · -- the start ends among the named ones
    have hnamed : ∀ x ∈ a, isNamed x = true := by
      intro x hx
      have hin : x ∈ l.filter isNamed := by rw [hc]; exact List.mem_append_left _ hx
      exact (List.mem_filter.1 hin).2
    rw [List.filter_eq_self.2 hnamed, List.filter_eq_nil_iff.2 (by simpa using hnamed),
      List.append_nil]

@[simp] theorem record_taken (s : State) (pairs : List (Slot × Param)) :
    (s.record config pairs).taken = (pairs.map (·.2)).reverse ++ s.taken := rfl

theorem record_append (s : State) (a b : List (Slot × Param)) :
    s.record config (a ++ b) = (s.record config a).record config b := by
  simp [State.record]

theorem record_variable (s : State) (h : config.isVariable slot.value = true) :
    s.record config [(slot, p)] = ⟨p :: s.taken, s.byVariable.put slot.value p, s.values⟩ := by
  simp [State.record, variableRecord?, literalRecord?, h]

theorem record_literal (s : State) {l : Literal} (h : config.isVariable slot.value = false)
    (hl : Literal.ofText slot.value = .ok l) :
    s.record config [(slot, p)] = ⟨p :: s.taken, s.byVariable, s.values.put p.name l⟩ := by
  simp [State.record, variableRecord?, literalRecord?, h, hl, Except.toOption]

theorem assign_eq_ok_iff {s' : State} : s.assign config slot.value p = .ok s' ↔
    Evaluable config slot.value ∧ s' = s.record config [(slot, p)] := by
  unfold State.assign Evaluable
  cases hv : config.isVariable slot.value with
  | true =>
    rw [if_pos rfl, record_variable s hv, Except.ok.injEq]
    exact ⟨fun h => ⟨by simp, h.symm⟩, fun h => h.2.symm⟩
  | false =>
    rw [if_neg (by simp), bind_eq_ok]
    constructor
    · rintro ⟨l, hl, h⟩
      rw [record_literal s hv hl]
      cases h
      exact ⟨fun _ => ⟨l, hl⟩, rfl⟩
    · rintro ⟨hl, rfl⟩
      obtain ⟨l, hl⟩ := hl rfl
      exact ⟨l, hl, by rw [record_literal s hv hl]⟩

theorem assign_eq_error_iff {e : Error} : s.assign config slot.value p = .error e ↔
    config.isVariable slot.value = false ∧ Literal.ofText slot.value = .error e := by
  unfold State.assign
  cases hv : config.isVariable slot.value with
  | true => simp
  | false =>
    rw [if_neg (by simp), bind_eq_error]
    simp

theorem run_cons_eq_ok_iff : run config declared s (slot :: rest) = .ok (params, last) ↔
    ∃ p others s', choose config declared s.taken slot = .ok p ∧
      s.assign config slot.value p = .ok s' ∧ run config declared s' rest = .ok (others, last) ∧
      params = p :: others := by
  simp only [run, bind_eq_ok]
  constructor
  · rintro ⟨p, hp, s', hs, ⟨others, l⟩, hr, h⟩
    cases h
    exact ⟨p, others, s', hp, hs, hr, rfl⟩
  · rintro ⟨p, others, s', hp, hs, hr, rfl⟩
    exact ⟨p, hp, s', hs, (others, last), hr, rfl⟩

/-- **When a run succeeds**, and what it has recorded then. -/
theorem run_eq_ok_iff : run config declared s slots = .ok (params, last) ↔
    Chosen config declared s.taken slots params ∧ (∀ slot ∈ slots, Evaluable config slot.value) ∧
      last = s.record config (slots.zip params) := by
  induction slots generalizing s params with
  | nil =>
    constructor
    · intro h; cases h; exact ⟨.nil _, by simp, rfl⟩
    · rintro ⟨h, -, rfl⟩; cases h; rfl
  | cons slot rest ih =>
    -- what the first argument records is recorded before all the others
    rw [run_cons_eq_ok_iff]
    constructor
    · rintro ⟨p, others, s', hp, hs, hr, rfl⟩
      obtain ⟨hv, rfl⟩ := assign_eq_ok_iff.1 hs
      obtain ⟨hc, he, rfl⟩ := ih.1 hr
      refine ⟨.cons hp hc, ?_, (record_append s [(slot, p)] _).symm⟩
      intro x hx
      rcases List.mem_cons.1 hx with rfl | hx
      · exact hv
      · exact he x hx
    · rintro ⟨h, he, rfl⟩
      cases h with
      | @cons _ others _ _ p hp hc =>
        refine ⟨p, others, _, hp, assign_eq_ok_iff.2 ⟨he slot List.mem_cons_self, rfl⟩, ?_, rfl⟩
        exact ih.2 ⟨hc, fun x hx => he x (List.mem_cons_of_mem _ hx),
          record_append s [(slot, p)] _⟩

/-- **When a run fails**: the arguments before some argument are bound, and that one has
no parameter to choose or a value that is no literal. -/
theorem run_eq_error_iff {e : Error} : run config declared s slots = .error e ↔
    ∃ before slot after params mid, slots = before ++ slot :: after ∧
      run config declared s before = .ok (params, mid) ∧
      (choose config declared mid.taken slot = .error e ∨
        ∃ p, choose config declared mid.taken slot = .ok p ∧
          mid.assign config slot.value p = .error e) := by
  induction slots generalizing s with
  | nil => simp [run]
  | cons first rest ih =>
    constructor
    · intro h
      simp only [run, bind_eq_error] at h
      rcases h with hc | ⟨p, hp, ha | ⟨s', hs, hr | ⟨_, _, h⟩⟩⟩
      · exact ⟨[], first, rest, [], s, rfl, rfl, .inl hc⟩
      · exact ⟨[], first, rest, [], s, rfl, rfl, .inr ⟨p, hp, ha⟩⟩
      · obtain ⟨before, slot, after, params, mid, rfl, hb, hf⟩ := ih.1 hr
        exact ⟨first :: before, slot, after, p :: params, mid, rfl,
          run_cons_eq_ok_iff.2 ⟨p, params, s', hp, hs, hb, rfl⟩, hf⟩
      · cases h
    · rintro ⟨before, slot, after, params, mid, heq, hb, hf⟩
      cases before with
      | nil =>
        cases heq; cases hb
        simp only [run, bind_eq_error]
        rcases hf with hc | ⟨p, hp, ha⟩
        · exact .inl hc
        · exact .inr ⟨p, hp, .inl ha⟩
      | cons _ others =>
        cases heq
        obtain ⟨p, params', s', hp, hs, hb', rfl⟩ := run_cons_eq_ok_iff.1 hb
        have hr := ih.2 ⟨others, slot, after, params', mid, rfl, hb', hf⟩
        simp only [run, bind_eq_error]
        exact .inr ⟨p, hp, .inr ⟨s', hs, .inl hr⟩⟩

/-! ## The two passes are runs -/

/-- The first pass is a run over named arguments. -/
theorem bindNamed_eq_run (h : ∀ slot ∈ slots, slot.isNamed = true) :
    bindNamed config declared s slots = run config declared s slots := by
  induction slots generalizing s with
  | nil => rfl
  | cons slot rest ih =>
    have ih' := fun s => ih (s := s) fun x hx => h x (List.mem_cons_of_mem _ hx)
    simp only [bindNamed, run, choose, h slot List.mem_cons_self, if_true, namedTarget?]
    cases resolve? config declared (slot.name.getD []) with
    | none => rfl
    | some p =>
      simp only
      by_cases hp : s.taken.contains p = true
      · rw [if_pos hp, if_pos hp]; rfl
      · rw [if_neg hp, if_neg hp]
        simp only [ih']; rfl

theorem isFree_cons {q : Param} (h : isFree taken q = false) (p : Param) :
    isFree (p :: taken) q = false := by
  simp only [isFree, Bool.and_eq_false_iff, Bool.not_eq_false'] at h ⊢
  rcases h with h | h
  · exact .inl h
  · exact .inr (by simp_all)

theorem isFree_self (taken : List Param) (p : Param) : isFree (p :: taken) p = false := by
  simp [isFree]

/-- The second pass is a run over positional arguments. The parameters that the cursor
has passed stay out of reach, since none of them is free. -/
theorem bindPositional_eq_run (passed : List Param) {left : List Param}
    (h : ∀ slot ∈ slots, slot.isNamed = false) (hp : ∀ p ∈ passed, isFree s.taken p = false) :
    bindPositional config s left slots = run config (passed ++ left) s slots := by
  induction slots generalizing s passed left with
  | nil => rfl
  | cons slot rest ih =>
    have hrest : ∀ x ∈ rest, x.isNamed = false := fun x hx => h x (List.mem_cons_of_mem _ hx)
    -- a search from the start finds what the cursor stops at
    have hfind : (passed ++ left).find? (isFree s.taken) =
        (left.dropWhile (!isFree s.taken ·)).head? := by
      rw [List.find?_append, List.find?_eq_none.2 (by simpa using hp), Option.none_or,
        List.find?_eq_head?_dropWhile_not]
    simp only [bindPositional, run, choose, h slot List.mem_cons_self, Bool.false_eq_true, if_false,
      hfind]
    cases hd : left.dropWhile (!isFree s.taken ·) with
    | nil => rfl
    | cons p others =>
      simp only [List.head?_cons]
      have hleft : passed ++ left =
          (passed ++ left.takeWhile (!isFree s.taken ·) ++ [p]) ++ others := by
        rw [List.append_assoc _ [p], List.singleton_append, ← hd, List.append_assoc,
          List.takeWhile_append_dropWhile]
      cases ha : s.assign config slot.value p with
      | error e => simp only [bind, Except.bind, ha]
      | ok s' =>
        have hs' : s'.taken = p :: s.taken := by rw [(assign_eq_ok_iff.1 ha).2]; rfl
        -- what the cursor passed now: parameters that were not free, and the one just taken
        have hpassed : ∀ q ∈ passed ++ left.takeWhile (!isFree s.taken ·) ++ [p],
            isFree s'.taken q = false := by
          intro q hq
          rw [hs']
          rcases List.mem_append.1 hq with hq | hq
          · refine isFree_cons ?_ p
            rcases List.mem_append.1 hq with hq | hq
            · exact hp q hq
            · simpa using List.mem_takeWhile_imp hq
          · rw [List.mem_singleton.1 hq]; exact isFree_self _ _
        rw [hleft]
        simp only [bind, Except.bind, ha, ih _ hrest hpassed]

theorem run_append (a b : List Slot) : run config declared s (a ++ b) = (do
    let (params, mid) ← run config declared s a
    let (others, last) ← run config declared mid b
    .ok (params ++ others, last)) := by
  induction a generalizing s with
  | nil =>
    simp only [List.nil_append, run, bind, Except.bind]
    cases run config declared s b <;> rfl
  | cons slot rest ih =>
    simp only [List.cons_append, run, bind, Except.bind, ih]
    cases choose config declared s.taken slot with
    | error e => rfl
    | ok p =>
      simp only
      cases s.assign config slot.value p with
      | error e => rfl
      | ok s' =>
        simp only
        cases run config declared s' rest with
        | error e => rfl
        | ok r =>
          simp only
          cases run config declared r.2 b <;> rfl

/-- The binding that a run over arguments in binding order gives: the parameters of the
named ones and of the positional ones, and the state after them. -/
def ofRun (declared : List Param) (slots : List Slot) (named positional : List Param)
    (last : State) : Binding where
  positional := positional
  declared := Table.ofPairs (declared.map fun p => (p.name, p))
  byVariable := last.byVariable
  params := weave slots named positional
  values := last.values

/-- **Binding is one run.** -/
theorem ofSlots_eq_run : ofSlots config declared slots = (do
    let (named, mid) ← run config declared .empty (slots.filter (·.isNamed))
    let (positional, last) ← run config declared mid (slots.filter (!·.isNamed))
    .ok (ofRun declared slots named positional last)) := by
  unfold ofSlots
  rw [bindNamed_eq_run fun slot h => (List.mem_filter.1 h).2]
  have hpass : ∀ mid, bindPositional config mid declared (slots.filter (!·.isNamed)) =
      run config declared mid (slots.filter (!·.isNamed)) := fun mid =>
    bindPositional_eq_run [] (fun slot h => by simpa using (List.mem_filter.1 h).2)
      (by simp)
  simp only [hpass]
  rfl

theorem ofSlots_eq_ok_iff_run {b : Binding} : ofSlots config declared slots = .ok b ↔
    ∃ named mid positional last,
      run config declared .empty (slots.filter (·.isNamed)) = .ok (named, mid) ∧
      run config declared mid (slots.filter (!·.isNamed)) = .ok (positional, last) ∧
      b = ofRun declared slots named positional last := by
  simp only [ofSlots_eq_run, bind_eq_ok, Prod.exists, Except.ok.injEq]
  constructor
  · rintro ⟨named, mid, hn, positional, last, hp, h⟩
    exact ⟨named, mid, positional, last, hn, hp, h.symm⟩
  · rintro ⟨named, mid, positional, last, hn, hp, h⟩
    exact ⟨named, mid, hn, positional, last, hp, h.symm⟩

/-- Binding fails as the run over the arguments in binding order does. -/
theorem ofSlots_eq_error_iff_run {e : Error} : ofSlots config declared slots = .error e ↔
    run config declared .empty (bindingOrder slots) = .error e := by
  unfold bindingOrder inOrder
  simp only [ofSlots_eq_run, run_append, bind_eq_error, Prod.exists, reduceCtorEq, and_false,
    exists_false, or_false]

end ProcCall.Binding
