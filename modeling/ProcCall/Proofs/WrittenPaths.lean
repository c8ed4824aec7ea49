import ProcCall.Name
import Mathlib.Data.List.Basic

/-!
# Paths as they are written

A path of identifiers is written with dots between them, each identifier as a plain word or
between brackets. Which words may stand without brackets is up to the reader of paths. What is
known of such a reader is a condition on what it gives for written paths (`ReadsPaths`); it may
refuse any of them.

* `Identifier`, `WrittenPath`: identifiers and paths, with the texts that they are written as.
* `PathReader.ReadsPaths`: what is known of a reader of paths.
* `PathReader.pieces_text`, `PathReader.readsPaths_bracketed`: a reader that cuts a text at the
  dots outside brackets.
-/

namespace ProcCall

/-- An identifier: a plain word, or anything between brackets. -/
inductive Identifier where
  | plain (word : Text)
  | bracketed (body : Text)
  deriving DecidableEq

namespace Identifier

/-- A text with every closing bracket written twice. -/
def closings : Text → Text
  | [] => []
  | c :: rest => if c = ']' then c :: c :: closings rest else c :: closings rest

/-- The identifier without brackets. -/
def name : Identifier → Text
  | plain word => word
  | bracketed body => body

/-- The identifier as it is written. -/
def text : Identifier → Text
  | plain word => word
  | bracketed body => '[' :: closings body ++ [']']

/-- Whether an identifier may be written: it is not empty, and a word without brackets is a plain
one. -/
structure IsProper (plain : Text → Prop) (i : Identifier) : Prop where
  name_ne : i.name ≠ []
  word : ∀ w, i = .plain w → plain w

instance (plain : Text → Prop) [DecidablePred plain] :
    (i : Identifier) → Decidable (i.IsProper plain)
  | .plain w => decidable_of_iff (w ≠ [] ∧ plain w) <| by
    constructor
    · rintro ⟨hne, hw⟩
      exact ⟨hne, fun _ heq => Identifier.plain.inj heq ▸ hw⟩
    · intro h
      exact ⟨h.name_ne, h.word w rfl⟩
  | .bracketed body => decidable_of_iff (body ≠ []) <| by
    constructor
    · exact fun hne => ⟨hne, nofun⟩
    · exact fun h => h.name_ne

end Identifier

/-- The places of a path; nothing may stand between two dots. -/
abbrev WrittenPath := List (Option Identifier)

namespace WrittenPath

/-- What stands in a place. -/
def placeText (place : Option Identifier) : Text := place.elim [] Identifier.text

/-- The path as it is written. -/
def text (p : WrittenPath) : Text := ['.'].intercalate (p.map placeText)

/-- The identifier in a place without brackets, empty when the place is. -/
def placeName (place : Option Identifier) : Text := place.elim [] Identifier.name

/-- The identifiers without brackets in their places. -/
def names (p : WrittenPath) : List (Option Text) := p.map (·.map Identifier.name)

/-- A path as name, schema and catalog. The last place is the name; of those before it, two or more
start with catalog and schema, and a single one is the schema. -/
def asParts (p : WrittenPath) : PathParts :=
  let name := placeName p.getLast?.join
  match p.dropLast with
  | [] => ⟨name, [], []⟩
  | [schema] => ⟨name, placeName schema, []⟩
  | catalog :: schema :: _ => ⟨name, placeName schema, placeName catalog⟩

/-- Whether a path may be written: its identifiers may be written, and its first and its last part
are not left out. -/
structure IsProper (plain : Text → Prop) (p : WrittenPath) : Prop where
  identifiers : ∀ i, some i ∈ p → i.IsProper plain
  first : ∃ i rest, p = some i :: rest
  last : ∃ front i, p = front ++ [some i]

instance (plain : Text → Prop) [DecidablePred plain] (p : WrittenPath) :
    Decidable (p.IsProper plain) :=
  decidable_of_iff ((∀ place ∈ p, ∀ i ∈ place, i.IsProper plain) ∧
      p.head?.join.isSome = true ∧ p.getLast?.join.isSome = true) <| by
    constructor
    · rintro ⟨hidentifiers, hfirst, hlast⟩
      obtain ⟨i, hi⟩ := Option.isSome_iff_exists.1 hfirst
      obtain ⟨j, hj⟩ := Option.isSome_iff_exists.1 hlast
      rw [Option.join_eq_some_iff] at hi hj
      obtain ⟨rest, hrest⟩ := List.head?_eq_some_iff.1 hi
      obtain ⟨front, hfront⟩ := List.getLast?_eq_some_iff.1 hj
      exact ⟨fun i hi => hidentifiers _ hi i rfl, ⟨i, rest, hrest⟩, ⟨front, j, hfront⟩⟩
    · rintro ⟨hidentifiers, ⟨i, rest, hfirst⟩, front, j, hlast⟩
      refine ⟨?_, ?_, ?_⟩
      · rintro place hplace i rfl
        exact hidentifiers i hplace
      · simp [hfirst]
      · simp [hlast]

variable {plain : Text → Prop} {p : WrittenPath}

/-- **The forms of a path**: one part, two parts, or more, with any places between the second and
the last. -/
theorem IsProper.cases (hp : p.IsProper plain) :
    (∃ i, p = [some i]) ∨ (∃ j i, p = [some j, some i]) ∨
      ∃ j place middle i, p = some j :: place :: middle ++ [some i] := by
  obtain ⟨front, i, rfl⟩ := hp.last
  obtain ⟨j, rest, hfirst⟩ := hp.first
  match front with
  | [] => exact .inl ⟨i, rfl⟩
  | [place] =>
    obtain ⟨rfl, -⟩ := List.cons.inj hfirst
    exact .inr (.inl ⟨j, i, rfl⟩)
  | first :: place :: middle =>
    obtain ⟨rfl, -⟩ := List.cons.inj hfirst
    exact .inr (.inr ⟨j, place, middle, i, rfl⟩)

theorem asParts_name (p : WrittenPath) : p.asParts.name = placeName p.getLast?.join := by
  unfold asParts
  split <;> rfl

/-- A path has a name. -/
theorem IsProper.asParts_name_ne (hp : p.IsProper plain) : p.asParts.name ≠ [] := by
  obtain ⟨front, i, rfl⟩ := hp.last
  have hi := hp.identifiers i (by simp)
  rw [asParts_name, List.getLast?_concat]
  exact hi.name_ne

theorem text_singleton (place : Option Identifier) : text [place] = placeText place := by
  rw [text, List.map_singleton, List.intercalate_singleton]

theorem text_cons_cons (place next : Option Identifier) (p : WrittenPath) :
    text (place :: next :: p) = placeText place ++ '.' :: text (next :: p) := by
  rw [text, List.map_cons, List.map_cons, List.intercalate_cons_cons, List.append_assoc]
  rfl

end WrittenPath

namespace PathReader

/-- The dialect of names between brackets. -/
def bracketDialect : Text := "tsql".toList

open WrittenPath in
/-- **What is known of a reader of paths**: which part of a written path is which, if the reader
takes the path. One part is the name, two are schema and name. Of three or more the first two are
catalog and schema and the last is the name, and a second part that is left out is no schema. -/
structure ReadsPaths (plain : Text → Prop) (reader : PathReader) : Prop where
  one : ∀ i path, IsProper plain [some i] →
    reader bracketDialect (text [some i]) = .ok path → path = ⟨i.name, [], []⟩
  two : ∀ j i path, IsProper plain [some j, some i] →
    reader bracketDialect (text [some j, some i]) = .ok path → path = ⟨i.name, j.name, []⟩
  more : ∀ j place middle i path, IsProper plain (some j :: place :: middle ++ [some i]) →
    reader bracketDialect (text (some j :: place :: middle ++ [some i])) = .ok path →
      path = ⟨i.name, placeName place, j.name⟩

/-- Such a reader gives a path its parts, if it takes the path. -/
theorem ReadsPaths.eq_asParts {plain : Text → Prop} {reader : PathReader} {p : WrittenPath}
    {path : PathParts} (h : reader.ReadsPaths plain) (hp : p.IsProper plain)
    (hread : reader bracketDialect p.text = .ok path) : path = p.asParts := by
  rcases hp.cases with ⟨i, rfl⟩ | ⟨j, i, rfl⟩ | ⟨j, place, middle, i, rfl⟩
  · exact h.one i path hp hread
  · exact h.two j i path hp hread
  · rw [h.more j place middle i path hp hread, WrittenPath.asParts, List.dropLast_concat,
      List.getLast?_concat]
    rfl

/-! ## A reader of brackets -/

/-- The pieces of a text between the dots that stand outside brackets, without brackets. The text
begins inside brackets (`inside`) or outside, and its first piece is the rest of one. -/
def pieces : (inside : Bool) → Text → List Text
  | _, [] => [[]]
  | true, ']' :: ']' :: rest => (pieces true rest).modifyHead (']' :: ·)
  | true, ']' :: rest => pieces false rest
  | true, c :: rest => (pieces true rest).modifyHead (c :: ·)
  | false, '.' :: rest => [] :: pieces false rest
  | false, '[' :: rest => pieces true rest
  | false, c :: rest => (pieces false rest).modifyHead (c :: ·)

/-- A reader that cuts a text at the dots outside brackets. -/
def bracketed : PathReader := fun _ t =>
  match pieces false t with
  | [] => .error .refused
  | [name] => .ok ⟨name, [], []⟩
  | [schema, name] => .ok ⟨name, schema, []⟩
  | catalog :: schema :: others => .ok ⟨others.getLastD [], schema, catalog⟩

/-- Whether a word is read as it is without brackets. -/
def IsBare (w : Text) : Prop := ∀ c ∈ w, c ≠ '.' ∧ c ≠ '['

instance (w : Text) : Decidable (IsBare w) :=
  decidable_of_iff (w.all (fun c => c ≠ '.' ∧ c ≠ '[') = true) <| by simp [IsBare]

variable {w rest : Text}

theorem modifyHead_nil (ts : List Text) : ts.modifyHead ([] ++ ·) = ts := by
  cases ts <;> rfl

theorem modifyHead_append (a b : Text) (ts : List Text) :
    (ts.modifyHead (b ++ ·)).modifyHead (a ++ ·) = ts.modifyHead (a ++ b ++ ·) := by
  cases ts <;> simp

theorem pieces_word (hw : IsBare w) (rest : Text) :
    pieces false (w ++ rest) = (pieces false rest).modifyHead (w ++ ·) := by
  induction w with
  | nil => exact (modifyHead_nil _).symm
  | cons c w ih =>
    obtain ⟨hdot, hopen⟩ := hw c List.mem_cons_self
    have hrest := ih fun d hd => hw d (List.mem_cons_of_mem _ hd)
    rw [List.cons_append, pieces, hrest]
    · exact modifyHead_append [c] w _
    · exact hdot
    · exact hopen

/-- Brackets are read up to the closing one that no other one follows. -/
theorem pieces_inside (hrest : rest.head? ≠ some ']') (body : Text) :
    pieces true (Identifier.closings body ++ ']' :: rest) =
      (pieces false rest).modifyHead (body ++ ·) := by
  induction body with
  | nil =>
    have hclose : pieces true (']' :: rest) = pieces false rest := by
      rw [pieces]
      rintro others rfl
      exact hrest rfl
    rw [Identifier.closings, List.nil_append, hclose]
    exact (modifyHead_nil _).symm
  | cons c body ih =>
    unfold Identifier.closings
    by_cases hc : c = ']'
    · rw [if_pos hc, hc, List.cons_append, List.cons_append, pieces, ih]
      exact modifyHead_append [']'] body _
    · rw [if_neg hc, List.cons_append, pieces, ih]
      · exact modifyHead_append [c] body _
      · exact fun _ heq _ => hc heq
      · exact hc

/-- What stands in a place is read up to the dot or the end of the text behind it. -/
theorem pieces_place {place : Option Identifier} (hplace : ∀ w, place = some (.plain w) → IsBare w)
    (hrest : ∀ c ∈ rest.head?, c = '.') : pieces false (WrittenPath.placeText place ++ rest) =
      (pieces false rest).modifyHead (WrittenPath.placeName place ++ ·) := by
  match place with
  | none => exact (modifyHead_nil _).symm
  | some (.plain w) => exact pieces_word (hplace w rfl) rest
  | some (.bracketed body) =>
    have hclose : rest.head? ≠ some ']' := by
      intro hhead
      cases hrest ']' hhead
    have hinside := pieces_inside hclose body
    change pieces false ('[' :: Identifier.closings body ++ [']'] ++ rest) = _
    rw [List.append_assoc, List.cons_append, pieces]
    exact hinside

/-- **The pieces of a written path** are its identifiers without brackets. -/
theorem pieces_text (place : Option Identifier) (p : WrittenPath)
    (hp : ∀ w, some (.plain w) ∈ place :: p → IsBare w) :
    pieces false (WrittenPath.text (place :: p)) = (place :: p).map WrittenPath.placeName := by
  have hplace : ∀ w, place = some (.plain w) → IsBare w := by
    rintro w rfl
    exact hp w List.mem_cons_self
  induction p generalizing place with
  | nil =>
    have hread : pieces false (WrittenPath.placeText place ++ []) =
        (pieces false []).modifyHead (WrittenPath.placeName place ++ ·) :=
      pieces_place hplace (by simp)
    rw [List.append_nil] at hread
    rw [WrittenPath.text_singleton, hread]
    simp [pieces]
  | cons next p ih =>
    have hnext : ∀ w, some (.plain w) ∈ next :: p → IsBare w :=
      fun w hw => hp w (List.mem_cons_of_mem _ hw)
    have hothers := ih next hnext fun w hw => hnext w (hw ▸ List.mem_cons_self)
    rw [WrittenPath.text_cons_cons, pieces_place hplace (by simp), pieces, hothers]
    simp

/-- **The reader of brackets** reads every path of bare words and brackets. -/
theorem readsPaths_bracketed : ReadsPaths IsBare bracketed := by
  have hpieces : ∀ place (p : WrittenPath), WrittenPath.IsProper IsBare (place :: p) →
      pieces false (WrittenPath.text (place :: p)) = (place :: p).map WrittenPath.placeName := by
    intro place p hp
    refine pieces_text place p fun w hw => ?_
    exact (hp.identifiers _ hw).word w rfl
  refine ⟨?_, ?_, ?_⟩
  · intro i path hp hpath
    rw [bracketed, hpieces _ _ hp] at hpath
    exact (Except.ok.inj hpath).symm
  · intro j i path hp hpath
    rw [bracketed, hpieces _ _ hp] at hpath
    exact (Except.ok.inj hpath).symm
  · intro j place middle i path hp hpath
    have hi : i.IsProper IsBare := hp.identifiers i (by simp)
    rw [List.cons_append, List.cons_append] at hp hpath
    rw [bracketed, hpieces _ _ hp] at hpath
    have hlast : (List.map WrittenPath.placeName (middle ++ [some i])).getLastD [] = i.name := by
      simp [WrittenPath.placeName]
    rw [List.map_cons, List.map_cons] at hpath
    generalize List.map WrittenPath.placeName (middle ++ [some i]) = others at hpath hlast
    cases others with
    | nil => exact absurd hlast.symm hi.name_ne
    | cons third others =>
      obtain rfl := Except.ok.inj hpath
      rw [hlast]
      rfl

end PathReader

end ProcCall
