import ProcCall.Name.Token

/-!
# Paths of identifiers

A path is a sequence of identifiers between dots. Between two dots nothing may stand,
within bounds, and dots at the start say nothing.

* `NamePart.ofTokens?`: what stands between two dots.
* `NamePath.ofTokens?`: the path that some tokens are.
* `NamePath.batch?`: the paths between semicolons.
-/

namespace ProcCall

/-- What stands between two dots of a procedure name. -/
inductive NamePart where
  | identifier (body : Text)
  /-- A parameter of the caller's own. -/
  | parameter (name : Text)
  /-- A call with arguments of its own. -/
  | call
  deriving DecidableEq

namespace NamePart

open NameToken

/-- The name that a part gives to a procedure. -/
def name : NamePart → Text
  | identifier body => body
  | parameter name => name
  | call => []

/-- The name of the catalog or schema that a part is. Only identifiers are one. -/
def qualifier : NamePart → Text
  | identifier body => body
  | _ => []

/-- A parameter: a question mark, or a colon or another sign before a name. A parameter
that names a parameter has no name. -/
def parameter? (d : Dialect) : List NameToken → Option NamePart
  | [mark '?'] => some (parameter ['?'])
  | [mark ':', word w] => if d.isReserved w then none else some (parameter w)
  | [mark ':', quoted b] => some (parameter b)
  | [mark ':', number n] => some (parameter n)
  | mark c :: ts =>
    if d.sigils.contains c then
      match ts with
      | [word w] => some (parameter w)
      | [quoted b] => some (parameter b)
      | [NameToken.string b] => some (parameter b)
      | [number n] => some (parameter n)
      | [code] => some (parameter [])
      | ts => if d.nestedParameters then (parameter? d ts).map fun _ => parameter [] else none
    else none
  | _ => none

/-- The tokens without up to `count` marks of a temporary procedure before them. -/
def dropTemporaryMarks (d : Dialect) : (count : Nat) → List NameToken → List NameToken
  | count + 1, mark c :: ts =>
    if d.temporaryMark = some c then dropTemporaryMarks d count ts else mark c :: ts
  | _, ts => ts

/-- A quoted identifier without up to `count` marks of a temporary procedure at its start. -/
def withoutTemporaryMarks (d : Dialect) : (count : Nat) → Text → Text
  | count + 1, c :: rest =>
    if d.temporaryMark = some c then withoutTemporaryMarks d count rest else c :: rest
  | _, body => body

/-- Whether some tokens are a plain value: a number, perhaps below zero, a string, an
identifier or a parameter. -/
def isValue (d : Dialect) : List NameToken → Bool
  | [word w] => !d.isReserved w
  | [quoted _] | [NameToken.string _] | [number _] | [mark '-', number _] | [code] => true
  | ts => (parameter? d ts).isSome

/-- Whether some tokens may be an argument of a call: nothing, or plain values between
dots. -/
def isArgument (d : Dialect) (ts : List NameToken) : Bool :=
  ts.isEmpty || (ts.splitOnP (· = dot)).all (isValue d)

/-- The call that some tokens are: a name and arguments between parentheses. -/
def call? (d : Dialect) : List NameToken → Option NamePart
  | name :: mark '(' :: rest =>
    let isName := match name with
      | word w => !d.isReserved w
      | quoted _ => true
      | _ => false
    let isClosed := rest.getLast? = some (mark ')')
    let arguments := rest.dropLast.splitOnP (· = mark ',')
    if isName && isClosed && arguments.all (isArgument d) then some call else none
  | _ => none

/-- The part that some tokens are, `some none` when there are none. -/
def ofTokens? (d : Dialect) (ts : List NameToken) : Option (Option NamePart) :=
  match dropTemporaryMarks d 2 ts with
  | [] => some none
  | [word w] => if d.isReserved w then none else some (some (identifier w))
  | [quoted b] => some (some (identifier (withoutTemporaryMarks d 2 b)))
  | [NameToken.string b] => some (some (identifier b))
  | rest => ((parameter? d rest).or (call? d ts)).map some

end NamePart

/-- The parts of a path; nothing may stand between two dots. -/
abbrev NamePath := List (Option NamePart)

namespace NamePath

open NameToken

/-- Whether a path ends with a part and has at most its second and third place empty. -/
def isProper (path : NamePath) : Bool :=
  !path.isEmpty && path.getLast? ≠ some none && !(path.drop 3).contains none

/-- Whether the first word takes the rest of the tokens as its own. -/
def isCommand (d : Dialect) (ts : List NameToken) : Bool :=
  match ts.dropWhile (· = newline) with
  | word w :: rest => d.isCommand w && rest.any (· ≠ newline)
  | _ => false

/-- The tokens between the dots that stand outside parentheses. `depth` parentheses are
open. -/
def places : (depth : Nat) → List NameToken → List (List NameToken)
  | _, [] => [[]]
  | depth, t :: ts =>
    if t = dot ∧ depth = 0 then [] :: places 0 ts
    else
      let depth := if t = mark '(' then depth + 1 else if t = mark ')' then depth - 1 else depth
      match places depth ts with
      | place :: others => (t :: place) :: others
      | [] => [[t]]

/-- The path that some tokens are. Empty places at its start are left out. -/
def ofTokens? (d : Dialect) (ts : List NameToken) : Option NamePath := do
  if isCommand d ts then none
  let parts ← (places 0 (ts.filter (!·.isSilent))).mapM (NamePart.ofTokens? d)
  let path := parts.dropWhile (· = none)
  if isProper path then some path else none

/-- Whether a comment belongs to a semicolon. A comment belongs to the token before it on
the same line, else to the one after it, and at the end to the one before it. `after` says
whether the token before is a semicolon, `near` whether it is on the same line, and
`waiting` whether a comment belongs to the next token. -/
def annotated : (after near waiting : Bool) → List NameToken → Bool
  | after, _, waiting, [] => after && waiting
  | after, near, waiting, comment :: rest =>
    (near && after) || annotated after near (waiting || !near) rest
  | after, _, waiting, newline :: rest => annotated after false waiting rest
  | _, _, waiting, semicolon :: rest => waiting || annotated true true false rest
  | _, _, _, _ :: rest => annotated false true false rest

/-- The tokens between semicolons; a semicolon at the end closes the last piece. -/
def statements (ts : List NameToken) : List (List NameToken) :=
  let pieces := ts.splitOnP (· = semicolon)
  if (ts.filter (!·.isSilent)).getLast? = some semicolon then pieces.dropLast else pieces

/-- The paths between semicolons. A semicolon with a comment of its own is no path. -/
def batch? (d : Dialect) (ts : List NameToken) : Option (List NamePath) :=
  if annotated false false false ts then none else (statements ts).mapM (ofTokens? d)

end NamePath

end ProcCall
