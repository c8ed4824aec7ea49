import ProcCall.Error

/-!
# Qualified procedure names

A procedure name is a path of identifiers between dots: the name of the procedure comes last,
and a catalog and a schema may come before it. Paths are read by a reader of SQL, which takes
the quotes off and says which identifier is which.

* `PathReader`: what reads paths, and what it gives.
* `ProcName.qualify`: the procedure name that a text is to a reader.
-/

namespace ProcCall

/-- What a reader gives for a path, without quotes. A part that the path does not have is
empty. -/
structure PathParts where
  name : Text
  schema : Text
  catalog : Text
  deriving DecidableEq

/-- Why a reader gives nothing for a text. -/
inductive ReadFault where
  /-- The text is no path. -/
  | refused
  /-- The reading itself went wrong. -/
  | raised (cause : Error)
  deriving DecidableEq

/-- A reader of paths: it is given the name of a dialect and a text. -/
abbrev PathReader := Text → Text → Except ReadFault PathParts

/-- A procedure name, without quotes. -/
structure ProcName where
  name : Text
  schema : Option Text
  catalog : Option Text
  deriving DecidableEq

namespace ProcName

/-- The given parts of the name that are not empty, the outermost first. Names with the same
parts count as equal. -/
def parts (n : ProcName) : List Text :=
  ([n.catalog, n.schema, some n.name].filterMap id).filter (!·.isEmpty)

/-- The parts with dots between them. -/
def text (n : ProcName) : Text := ['.'].intercalate n.parts

/-- The name as it is shown in messages. -/
def display (n : ProcName) : String :=
  "ProcedureName(name=" ++ n.name.display ++ ", schema=" ++ Text.displayOption n.schema ++
    ", catalog=" ++ Text.displayOption n.catalog ++ ")"

/-- A part that is left out when it is empty. -/
def given (part : Text) : Option Text := if part.isEmpty then none else some part

/-- The procedure name that the parts of a path make. -/
def ofParts (path : PathParts) : ProcName :=
  ⟨path.name, given path.schema, given path.catalog⟩

/-- The procedure name that a text is to a reader of paths. A path without a name is none. -/
def qualify (reader : PathReader) (dialect t : Text) : Except Error ProcName :=
  match reader dialect t with
  | .error .refused => .error (.unreadableName t)
  | .error (.raised cause) => .error cause
  | .ok path =>
    if path.name.isEmpty then .error (.emptyName t) else .ok (ofParts path)

end ProcName

end ProcCall
