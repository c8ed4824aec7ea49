import ProcCall.Datum

/-!
# Message templates

A template is a text with directives: a percent sign, perhaps a name in parentheses, and
a letter. Each takes a value and says how it is written; two percent signs stand for one.
A template without values is left as it is.

* `Template.fill`: a template with its directives replaced.
-/

namespace ProcCall

/-- What a template is filled with. -/
inductive TemplateArgs where
  /-- Values that the directives take in order, all of them. -/
  | sequence (values : List Datum)
  /-- One value, in which directives may look up names. -/
  | whole (value : Datum)

namespace TemplateArgs

/-- The values of a message; a table on its own is looked up in unless it is empty. -/
def ofList : List Datum → TemplateArgs
  | [.table (field :: fields)] => whole (.table (field :: fields))
  | values => sequence values

/-- Whether there are no values. -/
def isEmpty : TemplateArgs → Bool
  | sequence values => values.isEmpty
  | whole (.list items) => items.isEmpty
  | whole (.table fields) => fields.isEmpty
  | whole (.leaf (.scalar s)) => !s.isTruthy
  | whole (.leaf .sqlNull) => true
  | whole _ => false

/-- The values in order. -/
def values : TemplateArgs → List Datum
  | sequence values => values
  | whole value => [value]

/-- The table in which names are looked up. -/
def names? : TemplateArgs → Option (Table Datum)
  | whole (.table fields) => some fields
  | _ => none

/-- Whether values may be left over. -/
def mayBeLeft : TemplateArgs → Bool
  | whole (.leaf _) => false
  | whole _ => true
  | sequence _ => false

end TemplateArgs

namespace Template

/-- Why a template cannot be filled. -/
inductive Fault where
  | tooFewValues
  | tooManyValues
  /-- A value of the given kind is no number. -/
  | notNumber (letter : Char) (kind : String)
  /-- A directive ends with a character that is none of its letters. -/
  | unknownLetter (letter : Char) (position : Nat)
  | incomplete
  | incompleteName
  | noTable
  | unknownName (name : Text)
  deriving DecidableEq

/-- The wording of a fault. -/
def Fault.message : Fault → String
  | tooFewValues => "not enough arguments for format string"
  | tooManyValues => "not all arguments converted during string formatting"
  | notNumber letter kind =>
    "%" ++ letter.toString ++ " format: a real number is required, not " ++ kind
  | unknownLetter letter position =>
    let shown := if 31 ≤ letter.toNat ∧ letter.toNat ≤ 126 then letter else '?'
    "unsupported format character '" ++ shown.toString ++ "' (0x" ++
      String.ofList (Digits.ofNat 16 1 letter.toNat) ++ ") at index " ++ toString position
  | incomplete => "incomplete format"
  | incompleteName => "incomplete format key"
  | noTable => "format requires a mapping"
  | unknownName name => name.display

/-- The kind of a plain value. -/
def kindName : Datum → String
  | .list _ => "list"
  | .table _ => "dict"
  | .leaf (.scalar .null) => "NoneType"
  | .leaf (.scalar (.flag _)) => "bool"
  | .leaf (.scalar (.int _)) => "int"
  | .leaf (.scalar (.double _)) => "float"
  | .leaf _ => "str"

/-- A value written as the letter of a directive says; a number without its fraction. -/
def write (letter : Char) (position : Nat) (value : Datum) : Except Fault Text :=
  if letter = 's' then .ok value.text
  else if letter = 'r' then .ok value.display.toList
  else if letter = 'd' ∨ letter = 'i' ∨ letter = 'u' then
    match value with
    | .leaf (.scalar s) =>
      match s.ratio? with
      | some (n, d) => .ok (toString (n.tdiv d)).toList
      | none => .error (.notNumber letter (kindName value))
    | _ => .error (.notNumber letter (kindName value))
  else .error (.unknownLetter letter position)

/-- The name up to its closing parenthesis, and the rest. `depth` further parentheses are
open inside it. -/
def nameAt? : (depth : Nat) → Text → Option (Text × Text)
  | _, [] => none
  | 0, ')' :: rest => some ([], rest)
  | depth + 1, ')' :: rest => (nameAt? depth rest).map fun (n, after) => (')' :: n, after)
  | depth, '(' :: rest => (nameAt? (depth + 1) rest).map fun (n, after) => ('(' :: n, after)
  | depth, c :: rest => (nameAt? depth rest).map fun (n, after) => (c :: n, after)

/-- The text `t` from the letter of a directive on. The directive takes the first of
`values`, and what follows it is filled by `fillRest`. -/
def direct (total : Nat) (t : Text) (values : List Datum)
    (fillRest : Text → List Datum → Except Fault Text) : Except Fault Text :=
  match t, values with
  | [], _ => .error .incomplete
  | _ :: _, [] => .error .tooFewValues
  | letter :: rest, value :: values => do
    let shown ← write letter (total - (rest.length + 1)) value
    return shown ++ (← fillRest rest values)

/-- A template of `total` characters, from some place on, filled with the values that are
left. Each step takes one of `fuel`. -/
def fillFrom (args : TemplateArgs) (total : Nat) :
    (fuel : Nat) → Text → List Datum → Except Fault Text
  | _, [], values =>
    if values.isEmpty || args.mayBeLeft then .ok [] else .error .tooManyValues
  | 0, _ :: _, _ => .error .incomplete
  | fuel + 1, '%' :: '%' :: rest, values =>
    return '%' :: (← fillFrom args total fuel rest values)
  | fuel + 1, '%' :: '(' :: rest, _ =>
    match args.names? with
    | none => .error .noTable
    | some fields =>
      match nameAt? 0 rest with
      | none => .error .incompleteName
      | some (name, rest) =>
        match fields.get? name with
        | none => .error (.unknownName name)
        | some value => direct total rest [value] (fillFrom args total fuel)
  | fuel + 1, '%' :: rest, values => direct total rest values (fillFrom args total fuel)
  | fuel + 1, c :: rest, values => do return c :: (← fillFrom args total fuel rest values)

/-- A template with its directives replaced. Every step takes a character. -/
def fill (t : Text) (args : TemplateArgs) : Except Fault Text :=
  if args.isEmpty then .ok t else fillFrom args t.length t.length t args.values

end Template

end ProcCall
