import ProcCall.Error
import ProcCall.Text.Case

/-!
# Configurations

A configuration says which words and beginnings have a meaning in a call text.

* `Config.ofOptions`: a configuration from options, each of which has a default.
* `Config.replace`: a configuration with some of its options changed.
* `Config.normalizeName`: the form in which names are compared.
-/

namespace ProcCall

/-- What the reading of a call text depends on. Keyword sets are in rising order. -/
structure Config where
  /-- Beginnings that mark a value as a variable. -/
  variableMarks : List Text
  /-- Beginnings that mark a word before the procedure name as the return variable. -/
  returnVariableMarks : List Text
  /-- Words in lower case that may stand before the procedure name. -/
  execKeywords : List Text
  /-- Words in upper case that mark an argument as output. -/
  outputKeywords : List Text
  /-- Whether names are compared without regard to case and variable mark. -/
  matchNamesLoosely : Bool
  /-- The dialect that decides how identifiers are quoted. -/
  dialect : Text
  deriving DecidableEq

namespace Config

/-- A word put into a list in rising order that does not hold it yet. -/
def insertWord (w : Text) : List Text → List Text
  | [] => [w]
  | v :: rest =>
    if w = v then v :: rest
    else if w < v then w :: v :: rest
    else v :: insertWord w rest

/-- The set of the given words, each in the case that `fold` makes. -/
def keywordSet (fold : Text → Text) (ws : List Text) : List Text :=
  ws.foldr (fun w set => insertWord (fold w) set) []

/-- Options for a configuration; a list that is not given has its default. -/
structure Options where
  variableMarks : Option (List Text) := none
  returnVariableMarks : Option (List Text) := none
  execKeywords : Option (List Text) := none
  outputKeywords : Option (List Text) := none
  matchNamesLoosely : Bool := true
  dialect : Text := "tsql".toList

/-- The configuration with the given options. -/
def ofOptions (o : Options) : Config where
  variableMarks := o.variableMarks.getD [['@']]
  returnVariableMarks := o.returnVariableMarks.getD [['@'], ['{', '@']]
  execKeywords := keywordSet Text.toLower
    (o.execKeywords.getD ["exec".toList, "execute".toList])
  outputKeywords := keywordSet Text.toUpper
    (o.outputKeywords.getD ["OUT".toList, "OUTPUT".toList])
  matchNamesLoosely := o.matchNamesLoosely
  dialect := o.dialect

/-- The configuration with every option at its default. -/
def standard : Config := ofOptions {}

/-- Changes to a configuration. An option that is not mentioned stays; a list that is
changed to `none` gets its default again. -/
structure Changes where
  variableMarks : Option (Option (List Text)) := none
  returnVariableMarks : Option (Option (List Text)) := none
  execKeywords : Option (Option (List Text)) := none
  outputKeywords : Option (Option (List Text)) := none
  matchNamesLoosely : Option Bool := none
  dialect : Option Text := none
  /-- Mentioned names that are no options. -/
  unknown : List Text := []

/-- The changes of `b` made after those of `a`, as one set of changes. -/
def Changes.followedBy (a b : Changes) : Changes where
  variableMarks := b.variableMarks.or a.variableMarks
  returnVariableMarks := b.returnVariableMarks.or a.returnVariableMarks
  execKeywords := b.execKeywords.or a.execKeywords
  outputKeywords := b.outputKeywords.or a.outputKeywords
  matchNamesLoosely := b.matchNamesLoosely.or a.matchNamesLoosely
  dialect := b.dialect.or a.dialect
  unknown := a.unknown ++ b.unknown

/-- The configuration with changes made, unless a mentioned name is no option. -/
def replace (c : Config) (changes : Changes) : Except Error Config :=
  if changes.unknown.isEmpty then
    .ok <| ofOptions {
      variableMarks := changes.variableMarks.getD (some c.variableMarks)
      returnVariableMarks := changes.returnVariableMarks.getD (some c.returnVariableMarks)
      execKeywords := changes.execKeywords.getD (some c.execKeywords)
      outputKeywords := changes.outputKeywords.getD (some c.outputKeywords)
      matchNamesLoosely := changes.matchNamesLoosely.getD c.matchNamesLoosely
      dialect := changes.dialect.getD c.dialect }
  else .error (.unknownOptions (keywordSet id changes.unknown))

/-- Whether a value names a variable. -/
def isVariable (c : Config) (value : Text) : Bool := value.startsWithAny c.variableMarks

/-- Whether a word marks an argument as output. -/
def isOutputKeyword (c : Config) (w : Text) : Bool := c.outputKeywords.contains w.toUpper

/-- Whether a word may stand before the procedure name. -/
def isExecKeyword (c : Config) (w : Text) : Bool := c.execKeywords.contains w.toLower

/-- The text without the first of the given beginnings that it has. -/
def dropMark : List Text → Text → Text
  | [], t => t
  | mark :: rest, t => (mark.isPrefixOf? t).getD (dropMark rest t)

/-- The form in which the names of arguments and parameters are compared. -/
def normalizeName (c : Config) (name : Text) : Text :=
  if c.matchNamesLoosely then (dropMark c.variableMarks name).foldCase else name

/-- The configuration as it is shown in messages. -/
def display (c : Config) : String :=
  "ParserConfig(variable_prefixes=" ++ Text.displayTuple c.variableMarks ++
    ", return_variable_prefixes=" ++ Text.displayTuple c.returnVariableMarks ++
    ", exec_keywords=" ++ Text.displayList c.execKeywords ++
    ", output_keywords=" ++ Text.displayList c.outputKeywords ++
    ", match_names_loosely=" ++ Text.displayFlag c.matchNamesLoosely ++
    ", dialect=" ++ c.dialect.display ++ ")"

end Config

end ProcCall
