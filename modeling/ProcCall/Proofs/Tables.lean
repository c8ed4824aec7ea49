import ProcCall.Table
import Mathlib.Data.List.Nodup

/-!
# Tables through their keys

A table is read by `get?`, and these lemmas say what `put` and `ofPairs` do to what is
read. Keys stay distinct (`nodup_ofPairs`), so a filtered table can be read key by key.

* `get?_ofPairs`: the last pair put under a key counts.
* `mem_keys_ofPairs`: the keys of a table.
* `get?_eq_some_iff`: the pairs of a table with distinct keys.
* `ofPairs_eq_self`: pairs with distinct keys are their own table.
* `get?_filter`, `get?_filterMap`: reading a table of which some keys were left out.
-/

namespace ProcCall.Table

variable {α β : Type} {t : Table α}

/-- The keys of a table. -/
def keys (t : Table α) : List Text := t.map (·.1)

theorem get?_cons (k key : Text) (v : α) (rest : Table α) :
    get? ((k, v) :: rest) key = if key = k then some v else get? rest key := by
  unfold get?
  rw [List.lookup_cons]
  by_cases h : key = k
  · simp [h]
  · rw [if_neg h, beq_false_of_ne h]

theorem get?_put (t : Table α) (k key : Text) (v : α) :
    (t.put k v).get? key = if key = k then some v else t.get? key := by
  induction t with
  | nil => exact get?_cons k key v []
  | cons pair rest ih =>
    obtain ⟨k', v'⟩ := pair
    unfold put
    by_cases h : k' = k
    · rw [if_pos h, get?_cons, get?_cons, h]
      by_cases hk : key = k <;> simp [hk]
    · rw [if_neg h, get?_cons, get?_cons, ih]
      by_cases hk : key = k'
      · have : key ≠ k := fun hc => h (hk.symm.trans hc)
        rw [if_pos hk, if_neg this]
        exact (if_pos hk).symm
      · simp only [if_neg hk]

theorem mem_keys_put {t : Table α} {k key : Text} {v : α} :
    key ∈ (t.put k v).keys ↔ key = k ∨ key ∈ t.keys := by
  induction t with
  | nil => simp [put, keys]
  | cons pair rest ih =>
    unfold put
    by_cases h : pair.1 = k
    · rw [if_pos h]; simp [keys, h]
    · rw [if_neg h]
      simp only [keys, List.map_cons, List.mem_cons] at ih ⊢
      rw [ih]; exact or_left_comm

theorem nodup_put {t : Table α} (ht : t.keys.Nodup) (k : Text) (v : α) :
    (t.put k v).keys.Nodup := by
  induction t with
  | nil => simp [put, keys]
  | cons pair rest ih =>
    have ⟨hout, hrest⟩ := List.nodup_cons.1 ht
    unfold put
    by_cases h : pair.1 = k
    · rw [if_pos h]; exact ht
    · rw [if_neg h]
      refine List.nodup_cons.2 ⟨?_, ih hrest⟩
      intro hin
      rcases mem_keys_put.1 hin with hk | hk
      · exact h hk
      · exact hout hk

theorem nodup_foldl_put (pairs : List (Text × α)) : ∀ {t : Table α}, t.keys.Nodup →
    (keys (pairs.foldl (fun t pair => t.put pair.1 pair.2) t)).Nodup := by
  induction pairs with
  | nil => intro t ht; exact ht
  | cons pair rest ih => intro t ht; exact ih (nodup_put ht _ _)

theorem nodup_ofPairs (pairs : List (Text × α)) : (ofPairs pairs).keys.Nodup :=
  nodup_foldl_put pairs (t := []) List.nodup_nil

theorem get?_foldl_put (pairs : List (Text × α)) (key : Text) : ∀ t : Table α,
    get? (pairs.foldl (fun t pair => t.put pair.1 pair.2) t) key =
      (pairs.reverse.lookup key).or (t.get? key) := by
  induction pairs with
  | nil => intro t; rfl
  | cons pair rest ih =>
    intro t
    obtain ⟨k, v⟩ := pair
    rw [List.foldl_cons, ih, get?_put, List.reverse_cons, List.lookup_append, List.lookup_cons]
    -- a later pair with the key hides this one
    cases rest.reverse.lookup key with
    | some w => rfl
    | none =>
      by_cases h : key = k
      · simp [h]
      · rw [if_neg h, beq_false_of_ne h]; rfl

/-- **The last pair put under a key counts.** -/
theorem get?_ofPairs (pairs : List (Text × α)) (key : Text) :
    (ofPairs pairs).get? key = pairs.reverse.lookup key := by
  unfold ofPairs
  rw [get?_foldl_put]
  exact Option.or_none

theorem mem_keys_foldl_put (pairs : List (Text × α)) (key : Text) : ∀ t : Table α,
    key ∈ keys (pairs.foldl (fun t pair => t.put pair.1 pair.2) t) ↔
      key ∈ t.keys ∨ key ∈ keys pairs := by
  induction pairs with
  | nil => intro t; simp [keys]
  | cons pair rest ih =>
    intro t
    rw [List.foldl_cons, ih, mem_keys_put]
    simp only [keys, List.map_cons, List.mem_cons]
    rw [or_assoc]
    exact or_left_comm

/-- The keys of a table are those of the pairs that were put. -/
theorem mem_keys_ofPairs {pairs : List (Text × α)} {key : Text} :
    key ∈ (ofPairs pairs).keys ↔ key ∈ keys pairs := by
  have h := mem_keys_foldl_put pairs key []
  simpa [ofPairs, keys] using h

theorem put_of_not_mem {t : Table α} {k : Text} (h : k ∉ t.keys) (v : α) :
    t.put k v = t ++ [(k, v)] := by
  induction t with
  | nil => rfl
  | cons pair rest ih =>
    simp only [keys, List.map_cons, List.mem_cons, not_or] at h
    unfold put
    rw [if_neg (Ne.symm h.1), ih h.2]
    rfl

theorem foldl_put_of_nodup (pairs : List (Text × α)) : ∀ t : Table α,
    (t.keys ++ keys pairs).Nodup →
      pairs.foldl (fun t pair => t.put pair.1 pair.2) t = t ++ pairs := by
  induction pairs with
  | nil => intro t _; simp
  | cons pair rest ih =>
    intro t h
    have hnot : pair.1 ∉ t.keys := fun hin =>
      (List.nodup_append.1 h).2.2 _ hin _ (by simp [keys]) rfl
    rw [List.foldl_cons, put_of_not_mem hnot, ih]
    · simp
    · simpa [keys] using h

/-- **Pairs with distinct keys are their own table.** -/
theorem ofPairs_eq_self {pairs : List (Text × α)} (h : (keys pairs).Nodup) :
    ofPairs pairs = pairs := by
  unfold ofPairs
  exact foldl_put_of_nodup pairs [] h

theorem get?_eq_none {t : Table α} {key : Text} (h : key ∉ t.keys) : t.get? key = none := by
  induction t with
  | nil => rfl
  | cons pair rest ih =>
    simp only [keys, List.map_cons, List.mem_cons, not_or] at h
    rw [get?_cons, if_neg h.1, ih h.2]

/-- A table with distinct keys holds what is read from it. -/
theorem get?_eq_some_iff {t : Table α} (ht : t.keys.Nodup) {key : Text} {v : α} :
    t.get? key = some v ↔ (key, v) ∈ t := by
  induction t with
  | nil => simp [get?]
  | cons pair rest ih =>
    obtain ⟨k, w⟩ := pair
    have ⟨hout, hrest⟩ := List.nodup_cons.1 ht
    rw [get?_cons, List.mem_cons, Prod.mk.injEq]
    by_cases hk : key = k
    · subst hk
      -- the keys are distinct, so no other pair has this one
      have hnot : (key, v) ∉ rest := by
        intro hin
        exact hout (List.mem_map.2 ⟨(key, v), hin, rfl⟩)
      simp [hnot, eq_comm]
    · simp [hk, ih hrest]

theorem get?_filterMap (f : Text → α → Option β) {t : Table α} (ht : t.keys.Nodup) (key : Text) :
    get? (t.filterMap fun pair => (f pair.1 pair.2).map (pair.1, ·)) key =
      (t.get? key).bind (f key) := by
  induction t with
  | nil => rfl
  | cons pair rest ih =>
    obtain ⟨k, v⟩ := pair
    have ⟨hout, hrest⟩ := List.nodup_cons.1 ht
    rw [get?_cons, List.filterMap_cons]
    by_cases hk : key = k
    · subst hk
      -- the keys are distinct, so nothing under this one is left in the rest
      have hnone : get? rest key = none := get?_eq_none hout
      cases hf : f key v with
      | none => simp [hf, ih hrest, hnone]
      | some w => simp [hf, get?_cons]
    · cases hf : f k v with
      | none => simp [hk, ih hrest]
      | some w => simp [hk, get?_cons, ih hrest]

/-- To map the values in part leaves keys out and keeps the order of the others. -/
theorem keys_filterMap_sublist (f : Text → α → Option β) (t : Table α) :
    (keys (t.filterMap fun pair => (f pair.1 pair.2).map (pair.1, ·))).Sublist t.keys := by
  induction t with
  | nil => exact List.Sublist.slnil
  | cons pair rest ih =>
    rw [List.filterMap_cons]
    cases f pair.1 pair.2 with
    | none => exact ih.cons _
    | some w => exact ih.cons_cons _

theorem get?_filter (f : α → Bool) {t : Table α} (ht : t.keys.Nodup) (key : Text) :
    get? (t.filter (f ·.2)) key = (t.get? key).filter f := by
  -- to leave keys out is to map in part and keep every value
  have hpart : t.filter (f ·.2) =
      t.filterMap fun pair => ((some pair.2).filter f).map (pair.1, ·) := by
    rw [← List.filterMap_eq_filter]
    congr 1
    funext pair
    by_cases h : f pair.2 <;> simp [Option.guard, Option.filter, h]
  rw [hpart, get?_filterMap (fun _ v => (some v).filter f) ht]
  cases t.get? key <;> rfl

end ProcCall.Table
