import ProcCall.Digits
import ProcCall.Json
import ProcCall.Table

/-!
# Reading JSON

A strict reader of JSON texts. A repeated name keeps its first place and its last
value. Numbers without fraction and exponent are integers. The first fault of a text,
read from its start, is the one that counts.

* `Json.decode`: the value of a text that is JSON and keeps within the limits.
-/

namespace ProcCall.Json

/-- Why a text is not read. -/
inductive Fault where
  /-- The text is no JSON. -/
  | malformed
  /-- A number is too long or too large. -/
  | outOfRange
  /-- Lists and objects are nested too deep. -/
  | tooDeep
  deriving DecidableEq

/-- What a reader accepts of JSON. -/
structure Limits where
  /-- The greatest length of an integer, its sign included. -/
  integerLength : Nat
  /-- The greatest number of lists and objects around a value. -/
  depth : Nat

/-- The limits for texts of unknown origin. -/
def Limits.standard : Limits := ⟨Digits.readLimit, 993⟩

/-- Whether a character may stand around values. -/
def isSpace (c : Char) : Bool := c = ' ' || c = '\t' || c = '\n' || c = '\r'

/-- The text without the space at its start. -/
def skip (t : Text) : Text := t.dropWhile isSpace

/-- The value of a hexadecimal digit. -/
def hexDigit? (c : Char) : Option Nat :=
  if '0' ≤ c ∧ c ≤ '9' then some (c.toNat - '0'.toNat)
  else if 'a' ≤ c ∧ c ≤ 'f' then some (c.toNat - 'a'.toNat + 10)
  else if 'A' ≤ c ∧ c ≤ 'F' then some (c.toNat - 'A'.toNat + 10)
  else none

/-- The number of four hexadecimal digits. -/
def hexUnit? (a b c d : Char) : Option Nat := do
  some ((((← hexDigit? a) * 16 + (← hexDigit? b)) * 16 + (← hexDigit? c)) * 16 + (← hexDigit? d))

/-- The character after a backslash that an escape of one letter stands for. -/
def escaped? : Char → Option Char
  | '"' => some '"'
  | '\\' => some '\\'
  | '/' => some '/'
  | 'b' => some '\x08'
  | 'f' => some '\x0c'
  | 'n' => some '\n'
  | 'r' => some '\r'
  | 't' => some '\t'
  | _ => none

/-- The code points of a string up to its closing quote, and the rest. Halves of a pair
are still apart. -/
def units? : Text → Option (List Nat × Text)
  | '"' :: rest => some ([], rest)
  | '\\' :: 'u' :: a :: b :: c :: d :: rest => do
    let unit ← hexUnit? a b c d
    let (others, after) ← units? rest
    some (unit :: others, after)
  | '\\' :: c :: rest => do
    let char ← escaped? c
    let (others, after) ← units? rest
    some (char.toNat :: others, after)
  | c :: rest =>
    if c.toNat < 32 then none
    else (units? rest).map fun (others, after) => (c.toNat :: others, after)
  | [] => none

/-- Code points as a text, the halves of a pair joined. A half on its own is refused. -/
def joinPairs? : List Nat → Option Text
  | [] => some []
  | high :: rest =>
    if 0xD800 ≤ high ∧ high < 0xDC00 then
      match rest with
      | low :: rest' =>
        if 0xDC00 ≤ low ∧ low < 0xE000 then
          let code := 0x10000 + (high - 0xD800) * 0x400 + (low - 0xDC00)
          (joinPairs? rest').map (Char.ofNat code :: ·)
        else none
      | [] => none
    else if 0xDC00 ≤ high ∧ high < 0xE000 then none
    else (joinPairs? rest).map (Char.ofNat high :: ·)

/-- A string after its opening quote, and the rest. -/
def string? (t : Text) : Option (Text × Text) := do
  let (units, rest) ← units? t
  some (← joinPairs? units, rest)

/-- The digits at the start of a text, and the rest. -/
def digits (t : Text) : Text × Text := (t.takeWhile Char.isDigit, t.dropWhile Char.isDigit)

/-- The fraction at the start of a text, if any, and the rest. -/
def fraction? : Text → Option (Text × Text)
  | '.' :: t =>
    let (ds, rest) := digits t
    if ds.isEmpty then none else some (ds, rest)
  | t => some ([], t)

/-- The sign at the start of an exponent, and the rest. -/
def exponentSign : Text → Bool × Text
  | '-' :: t => (true, t)
  | '+' :: t => (false, t)
  | t => (false, t)

/-- The exponent at the start of a text, if any, and the rest. -/
def exponent? : Text → Option (Option Int × Text)
  | c :: t =>
    if c = 'e' ∨ c = 'E' then
      let (negative, t') := exponentSign t
      let (ds, rest) := digits t'
      let size : Int := Digits.toNat ds
      if ds.isEmpty then none else some (some (if negative then -size else size), rest)
    else some (none, c :: t)
  | [] => some (none, [])

/-- A number as it is written. -/
structure Numeral where
  negative : Bool
  whole : Text
  places : Text
  exponent : Option Int

/-- The numeral at the start of a text, and the rest. Only zero starts with a zero. -/
def numeral? (t : Text) : Option (Numeral × Text) := do
  let (negative, t) := match t with
    | '-' :: rest => (true, rest)
    | _ => (false, t)
  let (whole, t) := digits t
  if whole.isEmpty ∨ (whole.head? = some '0' ∧ 1 < whole.length) then none
  let (places, t) ← fraction? t
  let (exponent, t) ← exponent? t
  some (⟨negative, whole, places, exponent⟩, t)

/-- Whether a numeral has neither fraction nor exponent. -/
def Numeral.isInteger (n : Numeral) : Bool := n.places.isEmpty && n.exponent.isNone

/-- The value of a numeral, unless it is an integer that is too long or lies beyond the
doubles. -/
def Numeral.value? (integerLength : Nat) (n : Numeral) : Option Scalar :=
  if n.isInteger then
    let size : Int := Digits.toNat n.whole
    if integerLength < n.whole.length + (if n.negative then 1 else 0) then none
    else some (.int (if n.negative then -size else size))
  else
    let x := Double.ofDecimal n.negative
      ⟨Digits.toNat (n.whole ++ n.places), n.exponent.getD 0 - n.places.length⟩
    if x.isInfinite then none else some (.double x)

/-- The number at the start of a text, and the rest. -/
def readNumber (integerLength : Nat) (t : Text) : Except Fault (Scalar × Text) :=
  match numeral? t with
  | none => .error .malformed
  | some (n, rest) =>
    match n.value? integerLength with
    | none => .error .outOfRange
    | some s => .ok (s, rest)

/-- A string after its opening quote, and the rest. -/
def readString (t : Text) : Except Fault (Text × Text) :=
  match string? t with
  | some found => .ok found
  | none => .error .malformed

section Values

variable (integerLength : Nat)

mutual

/-- The value at the start of a text, and the rest. At most `depth` lists and objects may
be around a part of it. Each call takes one of `fuel`. -/
def readValue (fuel depth : Nat) (t : Text) : Except Fault (Json × Text) :=
  match fuel with
  | 0 => .error .malformed
  | fuel + 1 =>
    match skip t with
    | '"' :: rest => do
      let (s, rest) ← readString rest
      return (.leaf (.text s), rest)
    | '[' :: rest =>
      match depth with
      | 0 => .error .tooDeep
      | depth + 1 =>
        match skip rest with
        | ']' :: rest => .ok (.list [], rest)
        | rest => do
          let (items, rest) ← readItems fuel depth rest
          return (.list items, rest)
    | '\x7b' :: rest =>
      match depth with
      | 0 => .error .tooDeep
      | depth + 1 =>
        match skip rest with
        | '\x7d' :: rest => .ok (.table [], rest)
        | rest => do
          let (fields, rest) ← readFields fuel depth rest
          return (.table (Table.ofPairs fields), rest)
    | 'n' :: 'u' :: 'l' :: 'l' :: rest => .ok (.leaf .null, rest)
    | 't' :: 'r' :: 'u' :: 'e' :: rest => .ok (.leaf (.flag true), rest)
    | 'f' :: 'a' :: 'l' :: 's' :: 'e' :: rest => .ok (.leaf (.flag false), rest)
    | t => do
      let (n, rest) ← readNumber integerLength t
      return (.leaf n, rest)

/-- The items of a list that is not empty, up to its closing bracket, and the rest. -/
def readItems (fuel depth : Nat) (t : Text) : Except Fault (List Json × Text) :=
  match fuel with
  | 0 => .error .malformed
  | fuel + 1 => do
    let (item, rest) ← readValue fuel depth t
    match skip rest with
    | ',' :: rest =>
      let (items, rest) ← readItems fuel depth rest
      return (item :: items, rest)
    | ']' :: rest => return ([item], rest)
    | _ => .error .malformed

/-- The fields of an object that is not empty, up to its closing brace, and the rest. -/
def readFields (fuel depth : Nat) (t : Text) : Except Fault (List (Text × Json) × Text) :=
  match fuel with
  | 0 => .error .malformed
  | fuel + 1 =>
    match skip t with
    | '"' :: rest => do
      let (name, rest) ← readString rest
      match skip rest with
      | ':' :: rest =>
        let (field, rest) ← readValue fuel depth rest
        match skip rest with
        | ',' :: rest =>
          let (fields, rest) ← readFields fuel depth rest
          return ((name, field) :: fields, rest)
        | '\x7d' :: rest => return ([(name, field)], rest)
        | _ => .error .malformed
      | _ => .error .malformed
    | _ => .error .malformed

end

end Values

/-- The value of a text. Every call on the way takes at least one character of its own,
so the length of the text bounds their number. -/
def decode (limits : Limits) (t : Text) : Except Fault Json := do
  let (j, rest) ← readValue limits.integerLength (2 * t.length + 2) limits.depth t
  if (skip rest).isEmpty then return j else .error .malformed

end ProcCall.Json
