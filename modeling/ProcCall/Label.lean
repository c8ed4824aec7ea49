/-!
# Labels

The members of a fixed list, such as the kinds of token, are known by a label
outside the program.
-/

namespace ProcCall

/-- The label of one member of a fixed list. -/
structure Label where
  /-- The list that the member belongs to. -/
  owner : String
  member : String
  value : String
  /-- Whether the member counts as the text of its value. -/
  textual : Bool
  deriving DecidableEq

namespace Label

/-- A member that is no text; its value is its own name. -/
def symbol (owner member : String) : Label := ⟨owner, member, member, false⟩

/-- The label as it is shown inside other values. -/
def display (l : Label) : String :=
  "<" ++ l.owner ++ "." ++ l.member ++ ": '" ++ l.value ++ "'>"

/-- The label as a text of its own. -/
def text (l : Label) : String := if l.textual then l.value else l.owner ++ "." ++ l.member

end Label

end ProcCall
