import ProcCall.Text
import ProcCall.Text.Case.Upper
import ProcCall.Text.Case.Lower
import ProcCall.Text.Case.Folding
import ProcCall.Text.Case.Context

/-!
# Upper case, lower case and case folding

* `Text.toUpper`, `Text.foldCase`: character by character.
* `Text.toLower`: likewise, but a capital sigma that ends a word becomes `ς`.
-/

namespace ProcCall.Text

/-- Whether the nearest character that case is not seen through has a case. -/
def meetsCased (t : Text) : Bool :=
  match t.dropWhile CharSet.ignorable.contains with
  | [] => false
  | c :: _ => CharSet.cased.contains c

/-- The lower case of a text, `before` being the reversed text before it. A capital
sigma ends a word when a cased letter stands before it and none after it. -/
def lowerFrom (before : Text) : Text → Text
  | [] => []
  | c :: rest =>
    (if c = 'Σ' then if meetsCased before && !meetsCased rest then ['ς'] else ['σ']
      else CaseMap.lower.image c) ++ lowerFrom (c :: before) rest

/-- The text in lower case. -/
def toLower (t : Text) : Text := lowerFrom [] t

/-- The text in upper case. -/
def toUpper (t : Text) : Text := CaseMap.upper.apply t

/-- The text folded for comparison without regard to case. -/
def foldCase (t : Text) : Text := CaseMap.folding.apply t

end ProcCall.Text
