import ProcCall.Json
import ProcCall.Prepared

/-!
# Values of every kind

Log records and messages hold values of every kind of this library, in lists and
tables among plain ones.

* `Datum.display`, `Datum.text`: a value inside other values, and on its own.
* `Datum.equals`: equality of values.
* `Datum.toJson`: a value as JSON, in which other kinds are written as texts.
-/

namespace ProcCall

/-- A value that is no list and no table. -/
inductive Item where
  | scalar (s : Scalar)
  /-- The value of the literal `NULL`. -/
  | sqlNull
  | token (t : Token)
  | slot (s : Slot)
  | param (p : Param)
  | config (c : Config)
  | call (c : Call)
  | binding (b : Binding)
  | prepared (p : Prepared)
  | name (n : ProcName)
  | report (r : Report)
  | member (l : Label)

namespace Item

/-- A scalar as it is shown in messages. -/
def displayScalar : Scalar → String
  | .null => "None"
  | .flag value => Text.displayFlag value
  | .int value => toString value
  | .double value => Literal.displayDouble value
  | .text value => value.display

/-- The value as it is shown inside other values. -/
def display : Item → String
  | scalar s => displayScalar s
  | sqlNull => Literal.null.display
  | token t => t.display
  | slot s => s.display
  | param p => p.display
  | config c => c.display
  | call c => c.display
  | binding b => b.display
  | prepared p => p.display
  | name n => n.display
  | report r => String.ofList r.display
  | member l => l.display

/-- The value as a text of its own. -/
def text : Item → Text
  | scalar (.text value) => value
  | token t => t.value
  | slot s => s.text
  | call c => c.text
  | name n => n.text
  | report r => r.message
  | member l => l.text.toList
  | item => item.display.toList

/-- Whether two values are equal. Names are equal when their parts are, calls when name,
return variable and slots are. A binding, a prepared call and a report are equal to no
other one. -/
def equals : Item → Item → Bool
  | scalar a, scalar b => a.equals b
  | sqlNull, sqlNull => true
  | token a, token b => a = b
  | slot a, slot b => a = b
  | param a, param b => a.agrees b
  | config a, config b => a = b
  | call a, call b => a.agrees b
  | name a, name b => a.parts = b.parts
  | member a, member b => a = b
  | member l, scalar (.text t) => l.textual && l.value.toList = t
  | scalar (.text t), member l => l.textual && l.value.toList = t
  | _, _ => false

/-- The value as a JSON scalar. -/
def toScalar : Item → Scalar
  | scalar s => s
  | member l => .text l.value.toList
  | item => .text item.text

end Item

/-- A value of any kind. -/
abbrev Datum := Tree Item

namespace Datum

/-- A JSON value as a value. -/
def ofJson (j : Json) : Datum := j.map .scalar

/-- A value as JSON. -/
def toJson (d : Datum) : Json := d.map Item.toScalar

/-- How lists and tables are shown in messages. -/
def spaced : Tree.Layout Item := ⟨Item.display, Text.display, ", ", ": "⟩

/-- The value as it is shown inside other values. -/
def display (d : Datum) : String := d.render spaced

/-- The value as a text of its own. -/
def text : Datum → Text
  | .leaf item => item.text
  | d => (display d).toList

/-- Whether two separate values are equal. -/
def equals (d e : Datum) : Bool := Tree.equals Item.equals d e

/-- For each value, to which values it is equal; it is equal to itself. -/
def equalityRows (ds : List Datum) : List (List Bool) :=
  ds.zipIdx.map fun (d, i) => ds.zipIdx.map fun (e, j) => i = j || equals d e

/-- The number of different values. -/
def countDistinct (ds : List Datum) : Nat :=
  (ds.foldl (fun kept d => if kept.any (equals d) then kept else d :: kept) []).length

end Datum

end ProcCall
