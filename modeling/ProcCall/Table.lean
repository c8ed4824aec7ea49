import ProcCall.Text

/-!
# Tables

A table maps keys to values and keeps the order in which its keys were first put.

* `Table.put`: a new key goes to the end, a known key keeps its place and gets the
  new value.
-/

namespace ProcCall

/-- Keys with their values, in the order in which the keys were first put. -/
abbrev Table (α : Type) := List (Text × α)

namespace Table

variable {α : Type}

/-- The value of a key. -/
def get? (t : Table α) (key : Text) : Option α := t.lookup key

/-- The table with the value of `key` set. -/
def put (key : Text) (value : α) : Table α → Table α
  | [] => [(key, value)]
  | (k, v) :: rest => if k = key then (k, value) :: rest else (k, v) :: put key value rest

/-- The table after putting the given pairs one after another. -/
def ofPairs (pairs : List (Text × α)) : Table α :=
  pairs.foldl (fun t pair => t.put pair.1 pair.2) []

end Table

end ProcCall
