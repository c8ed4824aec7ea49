import ProcCall.Digits
import ProcCall.Text
import ProcCall.Text.Printable

/-!
# Texts as they are shown in messages

A text is shown between quote marks on one line, so that every character of it
can be told apart.

* `Text.display`: single quote marks, or double ones when the text holds a single
  quote and no double one; characters that do not print are shown by number.
-/

namespace ProcCall.Text

/-- A number with at least `width` hexadecimal digits. -/
def hex (width n : Nat) : String := String.ofList (Digits.ofNat 16 width n)

/-- One character as it is shown between `quote` marks. -/
def displayChar (quote c : Char) : String :=
  if c = quote ∨ c = '\\' then String.ofList ['\\', c]
  else if c = '\n' then "\\n"
  else if c = '\r' then "\\r"
  else if c = '\t' then "\\t"
  else if isPrintable c then c.toString
  else if c.toNat < 256 then "\\x" ++ hex 2 c.toNat
  else if c.toNat < 65536 then "\\u" ++ hex 4 c.toNat
  else "\\U" ++ hex 8 c.toNat

/-- The quote mark that a text is shown between. -/
def displayQuote (t : Text) : Char :=
  if t.contains '\'' && !t.contains '"' then '"' else '\''

/-- A text as it is shown in messages. -/
def display (t : Text) : String :=
  let quote := displayQuote t
  quote.toString ++ t.foldl (fun shown c => shown ++ displayChar quote c) "" ++ quote.toString

/-- An optional text as it is shown in messages. -/
def displayOption : Option Text → String
  | some t => display t
  | none => "None"

/-- A truth value as it is shown in messages. -/
def displayFlag (b : Bool) : String := if b then "True" else "False"

/-- Shown items between `opening` and `closing`, joined by commas. -/
def enclose (opening closing : String) (items : List String) : String :=
  opening ++ ", ".intercalate items ++ closing

/-- Texts shown as a list. -/
def displayList (ts : List Text) : String := enclose "[" "]" (ts.map display)

/-- Texts shown as a tuple; a tuple of one text keeps a comma. -/
def displayTuple : List Text → String
  | [t] => "(" ++ display t ++ ",)"
  | ts => enclose "(" ")" (ts.map display)

end ProcCall.Text
