import ProcCall.Text

/-!
# Trees of lists and tables

Values that nest: a leaf, a list of values, or values under names.

* `Tree.map`: the same tree with other leaves.
* `Tree.equals`: equality given equality of leaves; the order of names does not count.
* `Tree.render`: a tree written out, given how leaves are written.
-/

namespace ProcCall

/-- A value made of lists and named fields over leaves. -/
inductive Tree (α : Type) where
  | leaf (a : α)
  | list (items : List (Tree α))
  | table (fields : List (Text × Tree α))

namespace Tree

variable {α β : Type}

section Map

variable (f : α → β)

mutual

/-- The same tree with every leaf replaced by its image. -/
def map : Tree α → Tree β
  | leaf a => leaf (f a)
  | list items => list (mapItems items)
  | table fields => table (mapFields fields)

/-- `map` on the items of a list. -/
def mapItems : List (Tree α) → List (Tree β)
  | [] => []
  | t :: rest => map t :: mapItems rest

/-- `map` on named fields. -/
def mapFields : List (Text × Tree α) → List (Text × Tree β)
  | [] => []
  | (name, t) :: rest => (name, map t) :: mapFields rest

end

end Map

section Equality

variable (same : α → α → Bool)

mutual

/-- Whether two trees are equal, the order of fields aside. -/
def equals : Tree α → Tree α → Bool
  | leaf a, leaf b => same a b
  | list items, list others => itemsEqual items others
  | table fields, table others => fields.length == others.length && fieldsWithin fields others
  | _, _ => false

/-- Whether lists are equal item by item. -/
def itemsEqual : List (Tree α) → List (Tree α) → Bool
  | [], [] => true
  | t :: rest, u :: others => equals t u && itemsEqual rest others
  | _, _ => false

/-- Whether each field has an equal one of the same name. -/
def fieldsWithin : List (Text × Tree α) → List (Text × Tree α) → Bool
  | [], _ => true
  | (name, t) :: rest, others =>
    (match others.lookup name with
      | some u => equals t u
      | none => false) && fieldsWithin rest others

end

end Equality

/-- How trees are written out. -/
structure Layout (α : Type) where
  leaf : α → String
  name : Text → String
  /-- What stands between two neighbours. -/
  separator : String
  /-- What stands between a name and its value. -/
  colon : String

section Render

variable (l : Layout α)

mutual

/-- A tree written out. -/
def render : Tree α → String
  | leaf a => l.leaf a
  | list items => "[" ++ l.separator.intercalate (renderItems items) ++ "]"
  | table fields => "\x7b" ++ l.separator.intercalate (renderFields fields) ++ "\x7d"

/-- The items of a list, written out. -/
def renderItems : List (Tree α) → List String
  | [] => []
  | t :: rest => render t :: renderItems rest

/-- Named fields, written out. -/
def renderFields : List (Text × Tree α) → List String
  | [] => []
  | (name, t) :: rest => (l.name name ++ l.colon ++ render t) :: renderFields rest

end

end Render

end Tree

end ProcCall
