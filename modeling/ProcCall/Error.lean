import ProcCall.Slot

/-!
# What can go wrong

`Error` lists the causes for which a call is refused. Most of them are **reported**
to the caller as a `Report`; the others point at a mistake of the caller's own.

* `Error.report?`: the report of a cause, if it has one.
* `Error.message`: the wording of every cause.
* `Report.message`: the wording of a report, which shows the place in the text when
  the text is known.
-/

namespace ProcCall

/-- Why the arguments of a call do not fit the declared parameters. -/
inductive BindingFault where
  | duplicateName
  | unknownName
  | insufficientParameters
  deriving DecidableEq

namespace BindingFault

/-- The name of a fault. -/
def name : BindingFault → String
  | duplicateName => "duplicate_name"
  | unknownName => "unknown_name"
  | insufficientParameters => "insufficient_parameters"

/-- All faults. -/
def all : List BindingFault := [duplicateName, unknownName, insufficientParameters]

/-- The label that it is known by outside. -/
def label : BindingFault → Label
  | duplicateName => ⟨"BindingErrorKind", "DUPLICATE_NAME", "duplicate_name", true⟩
  | unknownName => ⟨"BindingErrorKind", "UNKNOWN_NAME", "unknown_name", true⟩
  | insufficientParameters =>
    ⟨"BindingErrorKind", "INSUFFICIENT_PARAMETERS", "insufficient_parameters", true⟩

end BindingFault

/-- What a report is about. -/
inductive Topic where
  | general
  /-- The call has no procedure name, or one that cannot be read. -/
  | call
  /-- The argument text cannot be split into tokens. -/
  | lexical (position : Int) (state : LexState)
  /-- A token has no place in an argument list; `input` is the argument text. -/
  | argument (token : Token) (state : SlotState) (input : Option Text)
  /-- The arguments do not fit the declared parameters. -/
  | binding (fault : BindingFault) (parameter : Option Text)
  /-- A value is no literal. -/
  | literal (raw : Text)

/-- The name of a topic. -/
def Topic.name : Topic → String
  | general => "SQLProcError"
  | call => "SQLProcParsingError"
  | lexical .. => "LexError"
  | argument .. => "ParserError"
  | binding .. => "BindingError"
  | literal .. => "EvaluationError"

/-- A report to the caller: a topic, a detail and notes that come before it. -/
structure Report where
  topic : Topic
  notes : List Text
  detail : Text

namespace Report

/-- A report with a message and nothing else. -/
def stated (topic : Topic) (message : Text) : Report := ⟨topic, [], message⟩

/-- A report whose first remark is the detail unless a detail is given. -/
def ofRemarks (topic : Topic) (remarks : List Text) (detail : Text) : Report :=
  match detail, remarks with
  | [], first :: rest => ⟨topic, rest, first⟩
  | _, _ => ⟨topic, remarks, detail⟩

/-- What a report about the call says when nothing else is known. -/
def defaultCallMessage : Text := "Issues parsing stored procedure call.".toList

/-- The report that `raw` is no literal. -/
def notLiteral (raw : Text) : Report :=
  stated (.literal raw) ("Could not convert string to a value: " ++ raw.display).toList

/-- The report without the place in the text. -/
def plainMessage (r : Report) : Text := (Text.unwords (r.notes ++ [r.detail])).strip

/-- The message of a report. A known, non-empty argument text is shown with the token
in brackets. -/
def message (r : Report) : Text :=
  match r.topic with
  | .argument token _ (some (c :: rest)) =>
    let text : Text := c :: rest
    r.plainMessage ++ " at position ".toList ++ (toString token.position).toList ++
      " (bracketed with » and « below)\n".toList ++ text.before token.position ++ ['»'] ++
      token.value ++ ['«'] ++ text.onward (token.position + token.value.length)
  | _ => r.plainMessage

/-- The report as it is shown inside other values. -/
def display (r : Report) : Text :=
  r.topic.name.toList ++ if r.detail.isEmpty then [] else " - ".toList ++ r.detail

end Report

/-- The causes for which a request is refused. -/
inductive Error where
  /-- A quoted literal has no closing quote up to a position, with the reader in a state. -/
  | unclosedQuote (position : Nat) (state : LexState)
  /-- A token that cannot come next. -/
  | unexpectedToken (token : Token) (state : SlotState) (input : Option Text)
  /-- The tokens end inside an argument. -/
  | unexpectedEnd (token : Token) (state : SlotState) (input : Option Text)
  /-- The call has no procedure name. -/
  | noProcedureName (call : Text)
  /-- The procedure name does not occur in the call. -/
  | nameNotFound (name : Text)
  /-- The procedure name is no path of identifiers. -/
  | unreadableName (name : Text)
  /-- The path of identifiers has no name at its end. -/
  | emptyName (name : Text)
  /-- No declared parameter has the name. -/
  | unknownParameter (name : Text)
  /-- The parameter of that name is already bound. -/
  | repeatedParameter (name : Text)
  /-- No declared parameter is left for the value. -/
  | tooManyArguments (value : Text)
  /-- The value is no literal. -/
  | notLiteral (raw : Text)
  /-- An integer literal has more digits than are read. -/
  | tooManyDigits (count : Nat)
  /-- A name that is no path of identifiers has more than three parts. -/
  | tooManyNameParts
  /-- No dialect has that name; `similar` is one with a name like it. -/
  | unknownDialect (name : Text) (similar : Option Text)
  /-- Dialects have no such setting; `similar` is one with a name like it. -/
  | unknownSetting (name : Text) (similar : Option Text)
  /-- The setting for the case of identifiers has no such value. -/
  | unknownStrategy (value : Text)
  /-- The setting for the case of identifiers has a truth value. -/
  | strategyIsFlag
  /-- A configuration has no such options. -/
  | unknownOptions (names : List Text)
  /-- There is no slot of that number. -/
  | slotOutOfRange
  /-- No level has that name. -/
  | unknownLevel (name : Text)
  /-- A name of levels stands for a text that is no level. -/
  | notLevel (value : Text)
  /-- A name of levels stands for a value, shown here, that is no text. -/
  | notLevelName (shown : Text)
  /-- An attribute of a log record has the name of a part of it. -/
  | attributeTaken (name : Text)
  deriving DecidableEq

namespace Error

/-- The report of a cause that is reported to the caller. -/
def report? : Error → Option Report
  | unclosedQuote position state => some <| .stated (.lexical position state)
    "Unexpected end of input. Expecting a closing single quote.".toList
  | unexpectedToken token state input => some <| .stated (.argument token state input)
    ("Error in parsing: unexpected " ++ token.value.display).toList
  | unexpectedEnd token state input => some <| .stated (.argument token state input)
    "Error in parsing: unexpected end of input".toList
  | noProcedureName call => some <| .stated .call
    ("No stored procedure name found in " ++ call.display).toList
  | nameNotFound name => some <| .stated .call
    ("Procedure name " ++ name.display ++ " not found in call text").toList
  | unreadableName name => some <| .stated .call
    ("Procedure name " ++ name.display ++ " could not be parsed: not a path of names").toList
  | emptyName name => some <| .stated .call
    ("Procedure name " ++ name.display ++ " could not be parsed").toList
  | unknownParameter name => some <| .stated (.binding .unknownName (some name))
    ("Parameter with name " ++ name.display ++ " was not found in the stored procedure").toList
  | repeatedParameter name => some <| .stated (.binding .duplicateName (some name))
    ("Parameter with name " ++ name.display ++ " is already specified").toList
  | tooManyArguments value => some <| .stated (.binding .insufficientParameters (some value))
    "More parameters are specified than the stored procedure has parameters".toList
  | notLiteral raw => some (.notLiteral raw)
  | _ => none

/-- The question that points to a name like the given one. -/
def suggestion : Option Text → Text
  | some name => " Did you mean ".toList ++ name ++ ['?']
  | none => []

/-- The wording of a cause. -/
def message (e : Error) : Text :=
  match e.report? with
  | some r => r.message
  | none =>
    match e with
    | tooManyDigits count =>
      ("Exceeds the limit (4300 digits) for integer string conversion: value has " ++
        toString count ++
        " digits; use sys.set_int_max_str_digits() to increase the limit").toList
    | tooManyNameParts => "too many values to unpack (expected 3)".toList
    | unknownDialect name similar =>
      "Unknown dialect '".toList ++ name ++ "'.".toList ++ suggestion similar
    | unknownSetting name similar =>
      "Unknown setting '".toList ++ name ++ "'.".toList ++ suggestion similar
    | unknownStrategy value => (value.display ++ " is not a valid NormalizationStrategy").toList
    | strategyIsFlag => "'bool' object has no attribute 'upper'".toList
    | unknownOptions names =>
      "Unknown ParserConfig option(s): ".toList ++ Text.commaList names
    | slotOutOfRange => "tuple index out of range".toList
    | unknownLevel name => "module 'logging' has no attribute '".toList ++ name ++ ['\'']
    | notLevel value => ("Unknown level: " ++ value.display).toList
    | notLevelName shown => "Level not an integer or a valid string: ".toList ++ shown
    | attributeTaken name =>
      (Text.display ("Attempt to overwrite " ++ name.display ++ " in LogRecord").toList).toList
    | _ => []

/-- The error with the argument text made known. -/
def withInput (text : Text) : Error → Error
  | unexpectedToken token state _ => unexpectedToken token state (some text)
  | unexpectedEnd token state _ => unexpectedEnd token state (some text)
  | e => e

end Error

end ProcCall
