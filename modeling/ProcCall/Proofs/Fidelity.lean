import ProcCall.Proofs.Arguments
import ProcCall.Proofs.Faithful
import ProcCall.Proofs.Heads
import ProcCall.Proofs.Stages

/-!
# Literals arrive as they were written

From end to end: values are written as a call, the call text is cut, read and bound, and
every parameter has the value that was meant for it.

* `callText`: arguments written as a call.
* `Fits`: when arguments fit the declared parameters.
* `assigned`: the value that is meant for each parameter.
* `literals_arrive`: preparing the written call sets exactly these values.
-/

namespace ProcCall

/-- A call of a procedure with arguments, as it is written. -/
def callText (name : Text) (args : List Argument) : Text :=
  name ++ ' ' :: Text.commaList (args.map Argument.text)

/-- A word that is read as the name of a procedure: no blanks, no keyword, no return
variable, and all its brackets are closed. -/
structure IsProcedureWord (name : Text) : Prop where
  nonempty : name ≠ []
  unbroken : ∀ c ∈ name, Text.isBlank c = false
  keyword : name.toLower ≠ "exec".toList ∧ name.toLower ≠ "execute".toList
  sign : name ≠ ['=']
  mark : ¬ ['@'] <+: name ∧ ¬ ['{', '@'] <+: name
  complete : CallHead.isComplete name = true

theorem IsProcedureWord.not_skippable {name : Text} (h : IsProcedureWord name) :
    CallHead.isSkippable .standard name = false := by
  have hwords : Config.standard.execKeywords = ["exec".toList, "execute".toList] := by decide
  have hexec : Config.standard.isExecKeyword name = false := by
    unfold Config.isExecKeyword
    rw [hwords, List.contains_cons, List.contains_cons, beq_false_of_ne h.keyword.1,
      beq_false_of_ne h.keyword.2]
    rfl
  have hidle : CallHead.isIdle .standard name = false := by simp [CallHead.isIdle, hexec, h.sign]
  have hmarks : Config.standard.returnVariableMarks = [['@'], ['{', '@']] := rfl
  have hreturn : CallHead.isReturnVariable .standard name = false := by
    refine Bool.eq_false_iff.2 fun hstarts => ?_
    simp only [CallHead.isReturnVariable, hmarks, Text.startsWithAny, List.any_cons, List.any_nil,
      Bool.or_false, Bool.or_eq_true, List.isPrefixOf_iff_prefix] at hstarts
    rcases hstarts with hat | hbrace
    · exact h.mark.1 hat
    · exact h.mark.2 hbrace
  simp [CallHead.isSkippable, hidle, hreturn]

namespace Argument

variable {args : List Argument} {declared : List Param}

/-- The parameters that arguments are given to by name. -/
def named (args : List Argument) : List Param := args.filterMap (·.target)

/-- The arguments that are given by their place. -/
def positional (args : List Argument) : List Argument := args.filter (·.target.isNone)

/-- The declared parameters that are left for arguments without a name. -/
def left (declared : List Param) (args : List Argument) : List Param :=
  declared.filter fun p => !p.isReturnValue && !(named args).contains p

/-- Whether arguments **fit** the declared parameters: the named ones name different declared
parameters, by names that can be read, and there are parameters for the others. -/
structure Fits (declared : List Param) (args : List Argument) : Prop where
  known : ∀ p ∈ named args, p ∈ declared
  readable : ∀ p ∈ named args, IsName p.name
  distinct : (named args).Nodup
  room : (positional args).length ≤ (left declared args).length

/-- The parameters that arguments without a name go to. -/
def byPlace (declared : List Param) (args : List Argument) : List Param :=
  (left declared args).take (positional args).length

/-- The value that an argument sets a parameter to. -/
def assignment (a : Argument) (p : Param) : Text × Literal := (p.name, a.value.literal)

/-- The value that is meant for each parameter: the named arguments first, then the others
in declared order. -/
def assigned (declared : List Param) (args : List Argument) : Table Literal :=
  (args.filterMap fun a => a.target.map a.assignment) ++
    List.zipWith assignment (positional args) (left declared args)

/-- The slots that arguments are read as. -/
theorem filter_named_slots (args : List Argument) :
    (args.map slot).filter (·.isNamed) = (args.filter (·.target.isSome)).map slot := by
  rw [List.filter_map]
  congr 1
  exact List.filter_congr fun a _ => isNamed_slot a

theorem filter_positional_slots (args : List Argument) :
    (args.map slot).filter (!·.isNamed) = (positional args).map slot := by
  rw [List.filter_map]
  congr 1
  refine List.filter_congr fun a _ => ?_
  rw [Function.comp_apply, isNamed_slot]
  cases a.target <;> rfl

/-! ## Where arguments go -/

section Targets

variable (hdecl : (declared.map fun p => Config.standard.normalizeName p.name).Nodup)

include hdecl

/-- Declared parameters are known from their names. -/
theorem normalNamesDiffer : Binding.NormalNamesDiffer .standard declared :=
  fun _ hp _ hq h => List.inj_on_of_nodup_map hdecl hp hq h

theorem namedTargets_slots (hfit : Fits declared args) :
    Binding.namedTargets .standard declared (args.map slot) = (named args).map some := by
  have hknown : ∀ a ∈ args, ∀ p ∈ a.target, p ∈ declared :=
    fun a ha p hp => hfit.known p (List.mem_filterMap.2 ⟨a, ha, hp⟩)
  unfold Binding.namedTargets named
  rw [filter_named_slots, List.map_map]
  clear hfit
  induction args with
  | nil => rfl
  | cons a rest ih =>
    have hrest := ih fun x hx => hknown x (List.mem_cons_of_mem _ hx)
    cases ht : a.target with
    | none => simpa [ht] using hrest
    | some p =>
      have hp := (normalNamesDiffer hdecl).resolve?_eq_some (hknown a List.mem_cons_self p ht) rfl
      have hslot : Binding.namedTarget? .standard declared a.slot = some p := by
        obtain ⟨target, value⟩ := a
        cases ht
        exact hp
      simpa [ht, hslot] using hrest

theorem freeParams_slots (hfit : Fits declared args) :
    Binding.freeParams .standard declared (args.map slot) = left declared args := by
  have hnodup : (left declared args).Nodup := hdecl.of_map.filter _
  have hleft : ∀ p, ((named args).map some).contains (some p) = (named args).contains p := by simp
  unfold Binding.freeParams
  rw [namedTargets_slots hdecl hfit]
  simp only [hleft]
  exact Binding.eraseDups_of_nodup hnodup

/-- **Where fitting arguments go**: the two passes over their slots. -/
theorem passes_slots (hfit : Fits declared args) :
    Binding.Passes .standard declared (args.map slot) (named args) (byPlace declared args) := by
  have hcount : ((args.map slot).filter (!·.isNamed)).length = (positional args).length := by
    rw [filter_positional_slots, List.length_map]
  refine ⟨namedTargets_slots hdecl hfit, hfit.distinct, ?_, ?_⟩
  · rw [freeParams_slots hdecl hfit, hcount]
    rfl
  · rw [freeParams_slots hdecl hfit, hcount]
    exact hfit.room

end Targets

/-! ## What is recorded for them -/

theorem literalRecord?_slot (a : Argument) (p : Param) :
    Binding.literalRecord? .standard (a.slot, p) = some (a.assignment p) := by
  have hvar : Config.standard.isVariable a.slot.value = false := by
    rw [value_slot]; exact a.value.isVariable_text
  have hlit : Literal.ofText a.slot.value = .ok a.value.literal := by
    rw [value_slot]; exact a.value.ofText_text
  simp [Binding.literalRecord?, hvar, hlit, Except.toOption, assignment]

/-- The records of arguments with their parameters. -/
theorem filterMap_literalRecord? (l : List Argument) (params : List Param) :
    ((l.map slot).zip params).filterMap (Binding.literalRecord? .standard) =
      List.zipWith assignment l params := by
  induction l generalizing params with
  | nil => rfl
  | cons a l ih =>
    cases params with
    | nil => rfl
    | cons p params =>
      rw [List.map_cons, List.zip_cons_cons, List.filterMap_cons_some (literalRecord?_slot a p), ih]
      rfl

theorem zipWith_named (args : List Argument) :
    List.zipWith assignment (args.filter (·.target.isSome)) (named args) =
      args.filterMap fun a => a.target.map a.assignment := by
  induction args with
  | nil => rfl
  | cons a rest ih =>
    unfold named at ih ⊢
    cases ht : a.target <;> simp [ht, ih]

theorem zipWith_take (l : List Argument) (params : List Param) :
    List.zipWith assignment l (params.take l.length) = List.zipWith assignment l params := by
  induction l generalizing params with
  | nil => rfl
  | cons a l ih =>
    cases params with
    | nil => rfl
    | cons p params => rw [List.length_cons, List.take_succ_cons, List.zipWith_cons_cons, ih]; rfl

theorem keys_zipWith (l : List Argument) (params : List Param) :
    (List.zipWith assignment l params).map (·.1) = (params.take l.length).map (·.name) := by
  induction l generalizing params with
  | nil => rfl
  | cons a l ih =>
    cases params with
    | nil => rfl
    | cons p params =>
      rw [List.zipWith_cons_cons, List.map_cons, ih, List.length_cons, List.take_succ_cons]
      rfl

theorem keys_assigned (declared : List Param) (args : List Argument) :
    (assigned declared args).keys = (named args ++ byPlace declared args).map (·.name) := by
  have hnamed : (args.filterMap fun a => a.target.map a.assignment).map (·.1) =
      (named args).map (·.name) := by
    unfold named
    rw [List.map_filterMap, List.map_filterMap]
    exact List.filterMap_congr fun a _ => by cases a.target <;> rfl
  unfold Table.keys assigned byPlace
  rw [List.map_append, List.map_append, hnamed, keys_zipWith]

/-- **Every parameter gets the value that was meant for it.** -/
theorem values_slots (hdecl : (declared.map fun p => Config.standard.normalizeName p.name).Nodup)
    (hfit : Fits declared args) {params : List Param}
    (hparams : params = Binding.weave (args.map slot) (named args) (byPlace declared args)) :
    Table.ofPairs ((Binding.orderedPairs (args.map slot) params).filterMap
      (Binding.literalRecord? .standard)) = assigned declared args := by
  have hpass := passes_slots hdecl hfit
  have hpairs : (Binding.orderedPairs (args.map slot) params).filterMap
      (Binding.literalRecord? .standard) = assigned declared args := by
    rw [hparams, hpass.orderedPairs_weave, List.filterMap_append, filter_named_slots,
      filter_positional_slots, filterMap_literalRecord?, filterMap_literalRecord?, zipWith_named]
    unfold byPlace
    rw [zipWith_take]
    rfl
  have hknown : ∀ p ∈ named args ++ byPlace declared args, p ∈ declared := by
    intro p hp
    rcases List.mem_append.1 hp with hp | hp
    · exact hpass.mem_named hp
    · exact (hpass.mem_positional hp).1
  -- no parameter is bound twice and their names differ, so no value is put over another
  have hkeys : (assigned declared args).keys.Nodup := by
    rw [keys_assigned]
    refine List.Nodup.map_on ?_ hpass.nodup
    intro p hp q hq heq
    exact normalNamesDiffer hdecl p (hknown p hp) q (hknown q hq) (by rw [heq])
  rw [hpairs, Table.ofPairs_eq_self hkeys]

end Argument

open Argument

variable {declared : List Param} {name : Text} {args : List Argument}

/-- A written call is read as its procedure and its arguments. -/
theorem Call.ofText_callText (hname : IsProcedureWord name)
    (hread : ∀ p ∈ Argument.named args, IsName p.name) :
    Call.ofText .standard (callText name args) = .ok ⟨name, none, args.map slot, .standard⟩ := by
  have hhead := CallHead.ofText_of_word hname.nonempty hname.unbroken hname.not_skippable
    hname.complete (Text.commaList (args.map Argument.text))
  have hwritable : ∀ s ∈ args.map slot, Slot.Writable .standard s := by
    intro s hs
    obtain ⟨a, ha, rfl⟩ := List.mem_map.1 hs
    exact Argument.writable _ fun p hp => hread p (List.mem_filterMap.2 ⟨a, ha, hp⟩)
  have htexts : (args.map slot).map Slot.text = args.map Argument.text := by
    rw [List.map_map]
    exact List.map_congr_left fun a _ => text_slot a
  have hslots := Slot.ofText_space_written hwritable
  rw [htexts] at hslots
  exact Call.ofText_eq_ok_iff.2 ⟨_, _, hhead, hslots, rfl⟩

/-- **Literals arrive as they were written.** A call of a procedure with strings, integers and
`NULL`, by place or by name, is prepared, and every parameter is set to the value that was
meant for it. -/
theorem literals_arrive (hname : IsProcedureWord name)
    (hdecl : (declared.map fun p => Config.standard.normalizeName p.name).Nodup)
    (hfit : Fits declared args) :
    ∃ p, Prepared.ofText .standard declared (callText name args) = .ok p ∧
      p.call.procedureName = name ∧ p.call.returnVariable = none ∧
      p.binding.values = assigned declared args := by
  have hcall := Call.ofText_callText hname hfit.readable
  have heval : ∀ s ∈ args.map slot, Binding.Evaluable .standard s.value := by
    intro s hs _
    obtain ⟨a, -, rfl⟩ := List.mem_map.1 hs
    rw [value_slot]
    exact ⟨a.value.literal, a.value.ofText_text⟩
  have hbind := Binding.ofSlots_eq_ok_iff_passes.2 ⟨_, _, passes_slots hdecl hfit, heval, rfl⟩
  have hprepare := Prepared.ofText_eq_ok_iff.2 ⟨_, _, hcall, hbind, rfl⟩
  exact ⟨_, hprepare, rfl, rfl, values_slots hdecl hfit rfl⟩

/-- A string by name and an integer by place. -/
theorem literals_arrive_of_two : ∃ p,
    Prepared.ofText .standard [⟨0, "@id".toList, 1, .input⟩, ⟨1, "@name".toList, 2, .input⟩]
      "f @name = 'O''Brien', 5".toList = .ok p ∧
    p.binding.values =
      [("@name".toList, .string "O'Brien".toList), ("@id".toList, .integer 5)] := by
  let id : Param := ⟨0, "@id".toList, 1, .input⟩
  let byName : Param := ⟨1, "@name".toList, 2, .input⟩
  let args : List Argument :=
    [⟨some byName, .string "O'Brien".toList⟩, ⟨none, .integer 5 (by decide)⟩]
  have hname : IsProcedureWord "f".toList :=
    ⟨by decide, List.forall_mem_singleton.2 rfl, by decide, by decide, by decide, rfl⟩
  have hdecl : ([id, byName].map fun p => Config.standard.normalizeName p.name).Nodup := by decide
  have hfit : Fits [id, byName] args := by
    refine ⟨by simp [named, args], ?_, by simp [named, args], by decide⟩
    intro p hp
    have hp : p = byName := by simpa [named, args] using hp
    rw [hp]
    exact ⟨by decide, List.all_iff_forall_prop.1 rfl⟩
  obtain ⟨p, hp, -, -, hvalues⟩ := literals_arrive hname hdecl hfit
  exact ⟨p, hp, hvalues⟩

end ProcCall
