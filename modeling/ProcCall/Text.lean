/-!
# Texts

A text is a list of characters, so that lengths and positions count characters
and every function on a text is a recursion over it.

* `words`: the blank-separated words of a text, `unwords` their joining.
* `strip`: a text without the blanks at its ends.
* `afterWords?`: what follows the first occurrence of given words.
-/

namespace ProcCall

/-- A text, character by character. -/
abbrev Text := List Char

namespace Text

/-- A **blank** separates words: the spaces of every width, the ends of lines
and pages, and the four separators that come before the space. -/
def isBlank (c : Char) : Bool :=
  let n := c.toNat
  (9 ≤ n && n ≤ 13) || (28 ≤ n && n ≤ 32) || n == 133 || n == 160 || n == 5760 ||
    (8192 ≤ n && n ≤ 8202) || n == 8232 || n == 8233 || n == 8239 || n == 8287 || n == 12288

/-- The words of a text: its longest runs without a blank. -/
def words (t : Text) : List Text := (t.splitOnP isBlank).filter (!·.isEmpty)

/-- Words joined by single spaces. -/
def unwords (ws : List Text) : Text := [' '].intercalate ws

/-- Texts joined by a comma and a space. -/
def commaList (ts : List Text) : Text := [',', ' '].intercalate ts

/-- The text without the blanks at its start. -/
def stripStart (t : Text) : Text := t.dropWhile isBlank

/-- The text without the blanks at its ends. -/
def strip (t : Text) : Text := (stripStart (stripStart t).reverse).reverse

/-- Whether the text starts with one of the given beginnings. -/
def startsWithAny (beginnings : List Text) (t : Text) : Bool :=
  beginnings.any (·.isPrefixOf t)

/-- The rest of a text that starts with the given words, neighbours separated by
at least one blank. -/
def dropWords? : List Text → Text → Option Text
  | [], t => some t
  | [w], t => w.isPrefixOf? t
  | w :: ws, t =>
    match w.isPrefixOf? t with
    | some (c :: rest) => if isBlank c then dropWords? ws (stripStart rest) else none
    | _ => none

/-- What follows the first occurrence of the given words, neighbours separated by
at least one blank. -/
def afterWords? (ws : List Text) : Text → Option Text
  | [] => dropWords? ws []
  | c :: rest => (dropWords? ws (c :: rest)).or (afterWords? ws rest)

/-- An index into a text of `length` characters, counted from the end when negative,
and brought into the text when it lies outside. -/
def clampIndex (length : Nat) (i : Int) : Nat := (if i < 0 then i + length else i).toNat

/-- The characters before an index. -/
def before (t : Text) (i : Int) : Text := t.take (clampIndex t.length i)

/-- The characters at and after an index. -/
def onward (t : Text) (i : Int) : Text := t.drop (clampIndex t.length i)

/-- The position of the last character equal to `c`. -/
def lastIndexOf? (c : Char) : Text → Option Nat
  | [] => none
  | d :: rest =>
    match lastIndexOf? c rest with
    | some i => some (i + 1)
    | none => if d = c then some 0 else none

end Text

end ProcCall
