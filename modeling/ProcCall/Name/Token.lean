import ProcCall.Name.Dialect

/-!
# Tokens of a procedure name

A procedure name is read as words, quoted identifiers, strings, numbers and marks.
Blanks part tokens and make none; the end of a line is kept, because a comment belongs
to the token before it only on the same line.

* `NameToken.ofText?`: the tokens of a name, unless a quote or a comment is left open.
-/

namespace ProcCall

/-- A piece of a procedure name. -/
inductive NameToken where
  | word (text : Text)
  | quoted (body : Text)
  | string (body : Text)
  | number (text : Text)
  /-- A number of another base than ten. -/
  | code
  | dot
  | semicolon
  | mark (c : Char)
  | comment
  | newline
  deriving DecidableEq

namespace NameToken

/-- Characters that begin no word. -/
def marks : List Char := "()[]\x7b\x7d&^:,-.+;/\\<>=!|~%*?@#'\x60\"".toList

/-- Whether a character begins no word in a dialect. -/
def isMark (d : Dialect) (c : Char) : Bool := marks.contains c || d.ownMarks.contains c

/-- Whether a character belongs to a word once the word has begun. -/
def isWordChar (d : Dialect) (c : Char) : Bool :=
  !Text.isBlank c && (d.innerMarks.contains c || !isMark d c)

/-- Whether a character ends a line. -/
def endsLine (c : Char) : Bool := c = '\n' || c = '\r'

/-! ### Quotes -/

/-- What a backslash and a letter stand for inside quotes. -/
def control? : Char → Option Char
  | 'a' => some '\x07'
  | 'b' => some '\x08'
  | 'f' => some '\x0c'
  | 'n' => some '\n'
  | 'r' => some '\r'
  | 't' => some '\t'
  | 'v' => some '\x0b'
  | '\\' => some '\\'
  | _ => none

/-- What a backslash and a character stand for. In a string it is the character itself
unless that is a control letter or one of a few that keep the backslash; elsewhere only
control letters count. -/
def escape? (inString : Bool) (c : Char) : Option Text :=
  match control? c with
  | some x => some [x]
  | none =>
    if !inString then none else some (if "0Z%_".toList.contains c then ['\\', c] else [c])

/-- The body of a quoted identifier up to its closing mark, and the rest. Inside, the
closing mark is written twice. -/
def body? (close : Char) : Text → Option (Text × Text)
  | [] => none
  | c :: rest =>
    if c = close then
      match rest with
      | c' :: rest' =>
        if c' = close then (body? close rest').map fun (b, after) => (close :: b, after)
        else some ([], rest)
      | [] => some ([], [])
    else (body? close rest).map fun (b, after) => (c :: b, after)

/-- The body of quotes in which a backslash has a meaning. -/
def escapedBody? (inString : Bool) (close : Char) : Text → Option (Text × Text)
  | [] => none
  | [c] => if c = close then some ([], []) else none
  | c :: c' :: rest =>
    if c = '\\' then
      match escape? inString c' with
      | some shown =>
        (escapedBody? inString close rest).map fun (b, after) => (shown ++ b, after)
      | none =>
        (escapedBody? inString close (c' :: rest)).map fun (b, after) => (c :: b, after)
    else if c = close then
      if c' = close then
        (escapedBody? inString close rest).map fun (b, after) => (close :: b, after)
      else some ([], c' :: rest)
    else (escapedBody? inString close (c' :: rest)).map fun (b, after) => (c :: b, after)

/-- The body of quotes in a dialect. -/
def quotedBody? (d : Dialect) (inString : Bool) (close : Char) (t : Text) :
    Option (Text × Text) :=
  if d.backslash then escapedBody? inString close t else body? close t

/-! ### Comments -/

/-- The two marks that open a comment and the two that close it. -/
structure CommentMarks where
  opening : Char × Char
  closing : Char × Char

/-- Comments that may go over several lines. -/
def blockComments : List CommentMarks :=
  [⟨('/', '*'), ('*', '/')⟩, ⟨('\x7b', '#'), ('#', '\x7d')⟩]

/-- What follows a comment after its opening marks, unless it is left open. `depth`
comments around it are open as well. A comment that opens where another one has just been
opened (`fresh`) does not count. -/
def afterComment? (nested : Bool) (m : CommentMarks) :
    (depth : Nat) → (fresh : Bool) → Text → Option Text
  | depth, fresh, c :: d :: rest =>
    if nested && !fresh && m.opening = (c, d) then afterComment? nested m (depth + 1) true rest
    else if m.closing = (c, d) then
      match depth with
      | 0 => some rest
      | depth + 1 => afterComment? nested m depth false (d :: rest)
    else afterComment? nested m depth false (d :: rest)
  | _, _, _ => none

/-- What follows a comment up to the end of the line. -/
def afterLine (t : Text) : Text := t.dropWhile fun c => !endsLine c

/-! ### Numbers and words -/

/-- The digits at the start of a text, and the rest. -/
def digits (t : Text) : Text × Text := (t.takeWhile Char.isDigit, t.dropWhile Char.isDigit)

/-- The fraction at the start of a text, with its point and perhaps without digits, and
the rest. -/
def fraction : Text → Text × Text
  | '.' :: t => ('.' :: (digits t).1, (digits t).2)
  | t => ([], t)

/-- The exponent at the start of a text, perhaps without digits, and the rest. A sign
belongs to it only before a digit. -/
def exponent : Text → Text × Text
  | e :: sign :: digit :: t =>
    if e.toUpper ≠ 'E' then ([], e :: sign :: digit :: t)
    else if (sign = '-' ∨ sign = '+') ∧ digit.isDigit then
      (e :: sign :: (digits (digit :: t)).1, (digits (digit :: t)).2)
    else (e :: (digits (sign :: digit :: t)).1, (digits (sign :: digit :: t)).2)
  | e :: t => if e.toUpper = 'E' then (e :: (digits t).1, (digits t).2) else ([], e :: t)
  | [] => ([], [])

/-- The number at the start of a text, with a fraction where `point` allows it, and the
rest. -/
def numeral (point : Bool) (t : Text) : Text × Text :=
  let (whole, t) := digits t
  let (places, t) := if point then fraction t else ([], t)
  let (power, t) := exponent t
  (whole ++ places ++ power, t)

/-- Whether a character is a digit of a base up to sixteen. -/
def isDigitOf (base : Nat) (c : Char) : Bool :=
  let n := c.toNat
  (c.isDigit && n < '0'.toNat + base) ||
    (base = 16 && ('A'.toNat ≤ c.toUpper.toNat && c.toUpper.toNat ≤ 'F'.toNat))

/-- Whether a text is made of digits of a base, with single underscores before and between
them. -/
def isCode (base : Nat) (t : Text) : Bool :=
  match t.splitOn '_' with
  | [] :: p :: ps => (p :: ps).all fun p => !p.isEmpty && p.all (isDigitOf base)
  | ps => ps.all fun p => !p.isEmpty && p.all (isDigitOf base)

/-- The token that starts with a zero and the letter of a base, and the rest. When its
digits are not of that base, it is an identifier. -/
def coded? (d : Dialect) : Text → Option (NameToken × Text)
  | '0' :: c :: rest =>
    (d.bases.lookup c.toUpper).map fun base =>
      let isPart (c : Char) : Bool := !Text.isBlank c && !isMark d c
      let body := rest.takeWhile isPart
      (if isCode base body then code else quoted ('0' :: c :: body), rest.dropWhile isPart)
  | _ => none

/-- The token that starts with a digit, and the rest. Where identifiers may start with
digits, a number with a word right behind it is one, unless that word starts with a
dollar sign. -/
def numeric (d : Dialect) (afterSigil : Bool) (t : Text) : NameToken × Text :=
  (coded? d t).getD <|
    let (n, rest) := numeral (!afterSigil) t
    let tail := rest.takeWhile (isWordChar d)
    if d.digitsFirst && !tail.isEmpty && tail.head? ≠ some '$' then
      (word (n ++ tail), rest.dropWhile (isWordChar d))
    else (number n, rest)

/-- What follows a word in letters of either case. -/
def afterLetters? : Text → Text → Option Text
  | [], t => some t
  | w :: ws, c :: t => if c.toUpper = w then afterLetters? ws t else none
  | _, [] => none

/-- What follows a phrase, its words with blanks between them. No word may go on behind
it. -/
def afterPhrase? (d : Dialect) : List Text → Text → Option Text
  | [], _ => none
  | [w], t =>
    (afterLetters? w t).filter fun
      | c :: _ => Text.isBlank c || isMark d c
      | [] => true
  | w :: ws, t =>
    match afterLetters? w t with
    | some (c :: rest) => if Text.isBlank c then afterPhrase? d ws (Text.stripStart rest) else none
    | _ => none

/-- The word or phrase at the start of a text, and the rest. A phrase is read in upper
case. -/
def wordOrPhrase (d : Dialect) (t : Text) : NameToken × Text :=
  let phrase? := d.phrases.findSome? fun p =>
    (afterPhrase? d (p.map String.toList) t).map fun rest =>
      (word (" ".intercalate p).toList, rest)
  phrase?.getD (word (t.takeWhile (isWordChar d)), t.dropWhile (isWordChar d))

/-! ### Tokens -/

/-- The token that starts with the mark `c`, and the rest, unless it is left open. -/
def marked? (d : Dialect) (c : Char) (rest : Text) : Option (NameToken × Text) :=
  if c = '.' then some (dot, rest)
  else if c = ';' then some (semicolon, rest)
  else if d.strings.contains c then
    (quotedBody? d true c rest).map fun (b, after) => (string b, after)
  else if d.commentMarks.contains c then some (comment, afterLine rest)
  else
    match c, rest with
    | '-', '-' :: rest' => some (comment, afterLine rest')
    | c, c' :: rest' =>
      match blockComments.find? fun m => m.opening = (c, c') with
      | some m => (afterComment? d.nestedComments m 0 true rest').map fun after => (comment, after)
      | none => some (mark c, rest)
    | c, [] => some (mark c, [])

/-- The token at the start of a text that starts with `c`, which is no blank, and the
rest. -/
def next? (d : Dialect) (afterSigil : Bool) (c : Char) (rest : Text) :
    Option (NameToken × Text) :=
  if c.isDigit then some (numeric d afterSigil (c :: rest))
  else
    match d.quotes.lookup c with
    | some close => (quotedBody? d false close rest).map fun (b, after) => (quoted b, after)
    | none => if isMark d c then marked? d c rest else some (wordOrPhrase d (c :: rest))

/-- Whether a token is a mark before a parameter. -/
def isSigil (d : Dialect) : NameToken → Bool
  | mark c => d.sigils.contains c
  | _ => false

/-- The tokens of a text. Each step takes one of `fuel`. -/
def scan (d : Dialect) : (fuel : Nat) → (afterSigil : Bool) → Text → Option (List NameToken)
  | _, _, [] => some []
  | 0, _, _ => none
  | fuel + 1, afterSigil, c :: rest =>
    if endsLine c then (scan d fuel afterSigil rest).map (newline :: ·)
    else if Text.isBlank c then scan d fuel afterSigil rest
    else do
      let (t, after) ← next? d afterSigil c rest
      let others ← scan d fuel (isSigil d t || (t = comment && afterSigil)) after
      some (t :: others)

/-- The tokens of a name, unless a quote or a comment is left open. Every step takes at
least one character. -/
def ofText? (d : Dialect) (t : Text) : Option (List NameToken) := scan d t.length false t

/-- Whether a token is left out where a path is read. -/
def isSilent : NameToken → Bool
  | comment | newline => true
  | _ => false

end NameToken

end ProcCall
