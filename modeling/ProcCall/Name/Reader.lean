import ProcCall.Name
import ProcCall.Name.Path

/-!
# The reader of paths in use

Procedure names may be read by any reader of paths; this is the one that calls are read with.

* `NamePath.read`: a text as a path; a text that is no path is cut at its dots.
* `ProcName.ofText`: the procedure name that a text is to this reader.
-/

namespace ProcCall

namespace NamePath

/-- The parts of a path. The last identifier is the name; of those before it, two or more
start with catalog and schema, and a single one is the schema. -/
def toParts (path : NamePath) : PathParts :=
  let name := path.getLast?.join.elim [] NamePart.name
  match path.dropLast.map fun place => place.elim [] NamePart.qualifier with
  | [] => ⟨name, [], []⟩
  | [schema] => ⟨name, schema, []⟩
  | catalog :: schema :: _ => ⟨name, schema, catalog⟩

/-- A text that is no path, cut at its dots. -/
def ofPieces (t : Text) : Except ReadFault PathParts :=
  match t.splitOn '.' with
  | [name] => named [] [] name
  | [schema, name] => named [] schema name
  | [catalog, schema, name] => named catalog schema name
  | _ => .error (.raised .tooManyNameParts)
where
  named (catalog schema name : Text) : Except ReadFault PathParts :=
    if name.isEmpty then .error .refused else .ok ⟨name, schema, catalog⟩

/-- The parts of the path that a text is in a dialect. Several paths have none. -/
def read : PathReader := fun dialect t =>
  match Dialect.ofText dialect with
  | .error e => .error (.raised e)
  | .ok d =>
    match NameToken.ofText? d t with
    | none => .error .refused
    | some ts =>
      match batch? d ts with
      | none => ofPieces t
      | some [path] => .ok path.toParts
      | some _ => .ok ⟨[], [], []⟩

end NamePath

/-- The procedure name that a text is in a dialect. -/
def ProcName.ofText (dialect t : Text) : Except Error ProcName :=
  qualify NamePath.read dialect t

end ProcCall
