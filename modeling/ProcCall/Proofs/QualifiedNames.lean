import ProcCall.Proofs.WrittenPaths

/-!
# Which paths give the same name

Whatever reads the paths, a name keeps the first two places before the last and the last place, with
the identifiers in them (`WrittenPath.kept`). So a path of up to three parts is kept whole. Names
count as equal when their parts do, and the parts of a name do not show a place that is left out: a
catalog without a schema looks like a schema. So `a..b` and `a.b` are equal as names, and no other
kept places are; the fields of the two names differ.

* `ProcName.places_ofParts`: the places of a name are those that are kept of the path.
* `WrittenPath.filterMap_kept_iff`: kept places with the same identifiers.
* `ProcName.written_paths_told_apart`: when two written paths give equal names.
* `ProcName.written_paths_conflated`: different paths with equal names.
-/

namespace ProcCall

variable {plain : Text → Prop} {reader : PathReader} {p q : WrittenPath}

namespace WrittenPath

/-! ## What is kept of a path -/

/-- The places that a name keeps of a path: the first two before the last, and the last. -/
def kept (p : WrittenPath) : WrittenPath := p.dropLast.take 2 ++ p.getLast?.toList

theorem kept_concat (front : WrittenPath) (place : Option Identifier) :
    kept (front ++ [place]) = front.take 2 ++ [place] := by
  rw [kept, List.dropLast_concat, List.getLast?_concat]
  rfl

/-- **A path of up to three parts is kept whole.** -/
theorem kept_eq_self (h : p.length ≤ 3) : p.kept = p := by
  rcases List.eq_nil_or_concat' p with rfl | ⟨front, place, rfl⟩
  · rfl
  · rw [List.length_append, List.length_singleton] at h
    have hfront : front.take 2 = front := List.take_of_length_le (by omega)
    rw [kept_concat, hfront]

/-- **The forms of what is kept**: one, two or three places, of which only the middle one of three
may be left out. -/
theorem IsProper.kept_cases (hp : p.IsProper plain) :
    (∃ i, p.kept = [some i]) ∨ (∃ j i, p.kept = [some j, some i]) ∨
      ∃ j place i, p.kept = [some j, place, some i] := by
  rcases hp.cases with ⟨i, rfl⟩ | ⟨j, i, rfl⟩ | ⟨j, place, middle, i, rfl⟩
  · exact .inl ⟨i, rfl⟩
  · exact .inr (.inl ⟨j, i, rfl⟩)
  · exact .inr (.inr ⟨j, place, i, kept_concat _ _⟩)

theorem mem_of_mem_kept {place : Option Identifier} (h : place ∈ p.kept) : place ∈ p := by
  rcases List.mem_append.1 h with h | h
  · exact List.dropLast_subset p (List.mem_of_mem_take h)
  · exact List.mem_of_getLast? (Option.mem_toList.1 h)

/-- No identifier of a path is empty. -/
theorem IsProper.ne_nil_of_mem (hp : p.IsProper plain) {name : Text}
    (h : name ∈ p.kept.names.filterMap id) : name ≠ [] := by
  rw [names, List.filterMap_map, List.mem_filterMap] at h
  obtain ⟨place, hplace, hname⟩ := h
  obtain ⟨i, rfl, rfl⟩ := Option.map_eq_some_iff.1 hname
  exact (hp.identifiers i (mem_of_mem_kept hplace)).name_ne

/-- Whether a path leaves out a part in the middle where another one has two parts, with the same
identifiers. -/
def OmitsMiddle (p q : WrittenPath) : Prop :=
  ∃ a b, p.names = [some a, none, some b] ∧ q.names = [some a, some b]

/-- Unless the middle one of three places is left out, the places follow from their identifiers. -/
theorem IsProper.names_kept_cases (hp : p.IsProper plain) :
    p.kept.names = (p.kept.names.filterMap id).map some ∨
      ∃ a b, p.kept.names = [some a, none, some b] := by
  rcases hp.kept_cases with ⟨i, hkept⟩ | ⟨j, i, hkept⟩ | ⟨j, place, i, hkept⟩
  · rw [hkept]
    exact .inl rfl
  · rw [hkept]
    exact .inl rfl
  · rw [hkept]
    cases place with
    | none => exact .inr ⟨j.name, i.name, rfl⟩
    | some k => exact .inl rfl

/-- **Kept places with the same identifiers** are the same, or one path leaves out a part in the
middle. -/
theorem filterMap_kept_iff (hp : p.IsProper plain) (hq : q.IsProper plain) :
    p.kept.names.filterMap id = q.kept.names.filterMap id ↔
      p.kept.names = q.kept.names ∨ p.kept.OmitsMiddle q.kept ∨ q.kept.OmitsMiddle p.kept := by
  constructor
  · intro h
    -- both paths are full, or one of them leaves out its middle, or both do
    rcases hp.names_kept_cases with hpnames | ⟨a, b, hpnames⟩
    · rcases hq.names_kept_cases with hqnames | ⟨c, d, hqnames⟩
      · exact .inl (by rw [hpnames, h, ← hqnames])
      · rw [h, hqnames] at hpnames
        exact .inr (.inr ⟨c, d, hqnames, hpnames⟩)
    · rcases hq.names_kept_cases with hqnames | ⟨c, d, hqnames⟩
      · rw [← h, hpnames] at hqnames
        exact .inr (.inl ⟨a, b, hpnames, hqnames⟩)
      · rw [hpnames, hqnames] at h
        obtain ⟨rfl, rfl⟩ : a = c ∧ b = d := by simpa using h
        exact .inl (hpnames.trans hqnames.symm)
  · rintro (h | ⟨a, b, hpnames, hqnames⟩ | ⟨a, b, hqnames, hpnames⟩)
    · rw [h]
    · rw [hpnames, hqnames]
      rfl
    · rw [hpnames, hqnames]
      rfl

end WrittenPath

namespace ProcName

variable {n m : ProcName} {dialect t : Text}

/-! ## The places of a name -/

/-- The places of a path that a name stands for. -/
def places (n : ProcName) : List (Option Text) :=
  match n.catalog, n.schema with
  | none, none => [some n.name]
  | none, some schema => [some schema, some n.name]
  | some catalog, schema => [some catalog, schema, some n.name]

/-- The parts of a name are what stands in its places and is not empty. -/
theorem parts_eq_places (n : ProcName) :
    n.parts = (n.places.filterMap id).filter (!·.isEmpty) := by
  obtain ⟨name, schema, catalog⟩ := n
  cases catalog with
  | none => cases schema <;> rfl
  | some catalog => rfl

/-- A name is told by its places. -/
theorem places_inj : n.places = m.places ↔ n = m := by
  constructor
  · intro h
    obtain ⟨name, schema, catalog⟩ := n
    obtain ⟨name', schema', catalog'⟩ := m
    cases catalog <;> cases catalog' <;> cases schema <;> cases schema' <;> simp_all [places]
  · rintro rfl
    rfl

/-- **The name of a text**: what the reader gives, with the parts that are empty left out. -/
theorem qualify_eq_ok_iff : qualify reader dialect t = .ok n ↔ ∃ path,
    reader dialect t = .ok path ∧ path.name ≠ [] ∧ n = ofParts path := by
  unfold qualify
  cases hread : reader dialect t with
  | error fault => cases fault <;> simp
  | ok path =>
    cases hname : path.name.isEmpty with
    | true =>
      have hnil : path.name = [] := List.isEmpty_iff.1 hname
      simp [hnil]
    | false =>
      have hne : path.name ≠ [] := List.isEmpty_eq_false_iff.1 hname
      simp [hname, hne, eq_comm]

theorem given_eq_some {part : Text} (h : part ≠ []) : given part = some part := by
  rw [given, List.isEmpty_eq_false_iff.2 h]
  rfl

/-- **The places of a name** are those that are kept of the path. -/
theorem places_ofParts (hp : p.IsProper plain) : places (ofParts p.asParts) = p.kept.names := by
  have hgiven : ∀ i, some i ∈ p → given i.name = some i.name :=
    fun i hi => given_eq_some (hp.identifiers i hi).name_ne
  rcases hp.cases with ⟨i, rfl⟩ | ⟨j, i, rfl⟩ | ⟨j, place, middle, i, rfl⟩
  · rfl
  · change places ⟨i.name, given j.name, none⟩ = [some j.name, some i.name]
    rw [hgiven j (by simp)]
    rfl
  · have hparts : WrittenPath.asParts (some j :: place :: middle ++ [some i]) =
        ⟨i.name, WrittenPath.placeName place, j.name⟩ := by
      rw [WrittenPath.asParts, List.dropLast_concat, List.getLast?_concat]
      rfl
    rw [hparts, WrittenPath.kept_concat, ofParts, hgiven j (by simp)]
    cases place with
    | none => rfl
    | some k =>
      have hschema : given (WrittenPath.placeName (some k)) = some k.name := hgiven k (by simp)
      rw [hschema]
      rfl

theorem places_of_qualify (hreader : reader.ReadsPaths plain) (hp : p.IsProper plain)
    (h : qualify reader PathReader.bracketDialect p.text = .ok n) : n.places = p.kept.names := by
  obtain ⟨path, hpath, -, rfl⟩ := qualify_eq_ok_iff.1 h
  rw [hreader.eq_asParts hp hpath, places_ofParts hp]

/-- The parts of a name are the identifiers that are kept of the path. -/
theorem parts_of_qualify (hreader : reader.ReadsPaths plain) (hp : p.IsProper plain)
    (h : qualify reader PathReader.bracketDialect p.text = .ok n) :
    n.parts = p.kept.names.filterMap id := by
  rw [parts_eq_places, places_of_qualify hreader hp h]
  refine List.filter_eq_self.2 fun name hname => ?_
  have hne := hp.ne_nil_of_mem hname
  simpa using hne

/-- **When two written paths give equal names**, to any reader of paths. Names count as equal when
their parts do, and that is so exactly when the kept places of the paths are the same with the same
identifiers, or one path leaves out a part in the middle where the other one has two parts. The
fields of the names agree exactly when the kept places do, so a catalog is never taken for a schema.
Paths of up to three parts are kept whole. -/
theorem written_paths_told_apart (hreader : reader.ReadsPaths plain) (hp : p.IsProper plain)
    (hq : q.IsProper plain) (hn : qualify reader PathReader.bracketDialect p.text = .ok n)
    (hm : qualify reader PathReader.bracketDialect q.text = .ok m) :
    (n.parts = m.parts ↔
      p.kept.names = q.kept.names ∨ p.kept.OmitsMiddle q.kept ∨ q.kept.OmitsMiddle p.kept) ∧
    (n = m ↔ p.kept.names = q.kept.names) ∧
    (p.length ≤ 3 → p.kept = p) ∧ (q.length ≤ 3 → q.kept = q) := by
  refine ⟨?_, ?_, WrittenPath.kept_eq_self, WrittenPath.kept_eq_self⟩
  · rw [parts_of_qualify hreader hp hn, parts_of_qualify hreader hq hm]
    exact WrittenPath.filterMap_kept_iff hp hq
  · rw [← places_inj, places_of_qualify hreader hp hn, places_of_qualify hreader hq hm]

/-- Two quoted forms of a path that leaves out its schema, one of them with a part that is not
kept. -/
theorem written_paths_told_apart_of_quoted :
    let p : WrittenPath := [some (.bracketed "a]b".toList), none, some (.plain "c".toList)]
    let q : WrittenPath := [some (.bracketed "a]b".toList), none, some (.plain "x".toList),
      some (.bracketed "c".toList)]
    let n : ProcName := ⟨"c".toList, none, some "a]b".toList⟩
    p.text = "[a]]b]..c".toList ∧ q.text = "[a]]b]..x.[c]".toList ∧
      qualify PathReader.bracketed PathReader.bracketDialect p.text = .ok n ∧
      qualify PathReader.bracketed PathReader.bracketDialect q.text = .ok n ∧
      p.kept.names = q.kept.names ∧ p.kept = p := by
  intro p q n
  have hp : p.IsProper PathReader.IsBare := by decide
  have hq : q.IsProper PathReader.IsBare := by decide
  have hn : qualify PathReader.bracketed PathReader.bracketDialect p.text = .ok n := rfl
  have hm : qualify PathReader.bracketed PathReader.bracketDialect q.text = .ok n := rfl
  obtain ⟨-, hequal, hpshort, -⟩ :=
    written_paths_told_apart PathReader.readsPaths_bracketed hp hq hn hm
  exact ⟨rfl, rfl, hn, hm, hequal.1 rfl, hpshort (by decide)⟩

/-- Two different paths that may be written and that a reader gives equal names. -/
structure Conflated (plain : Text → Prop) (reader : PathReader) (p q : WrittenPath) : Prop where
  left : p.IsProper plain
  right : q.IsProper plain
  different : p.names ≠ q.names
  equal : ∃ n m, qualify reader PathReader.bracketDialect p.text = .ok n ∧
    qualify reader PathReader.bracketDialect q.text = .ok m ∧ n.parts = m.parts

/-- **Different paths with equal names**: `a..b` and `a.b`, and two paths of four parts that differ
in the third one. -/
theorem written_paths_conflated :
    PathReader.bracketed.ReadsPaths PathReader.IsBare ∧
      Conflated PathReader.IsBare PathReader.bracketed
        [some (.plain "a".toList), none, some (.plain "b".toList)]
        [some (.plain "a".toList), some (.plain "b".toList)] ∧
      Conflated PathReader.IsBare PathReader.bracketed
        [some (.plain "srv".toList), some (.plain "db".toList), some (.plain "dbo".toList),
          some (.plain "p".toList)]
        [some (.plain "srv".toList), some (.plain "db".toList), some (.plain "sys".toList),
          some (.plain "p".toList)] := by
  refine ⟨PathReader.readsPaths_bracketed, ⟨by decide, by decide, by decide, ?_⟩,
    ⟨by decide, by decide, by decide, ?_⟩⟩
  · exact ⟨⟨"b".toList, none, some "a".toList⟩, ⟨"b".toList, some "a".toList, none⟩, rfl, rfl, rfl⟩
  · let n : ProcName := ⟨"p".toList, some "db".toList, some "srv".toList⟩
    exact ⟨n, n, rfl, rfl, rfl⟩

end ProcName

end ProcCall
