import ProcCall.Log.Clock
import ProcCall.Log.Template

/-!
# Log records

A log record is a message with its level, its logger and the place it comes from. Some
attributes describe the call that it is about; one that has the name of a part of the
record takes its place.

* `LogRecord.structured`: a record as one JSON object.
* `LogRecord.plain`: a record as one line of text.
* `LogRecord.taken?`: an attribute that a logger does not let through.
-/

namespace ProcCall

/-- A number of seconds or milliseconds, as it was measured. -/
abbrev Measure := Scalar

namespace Measure

/-- The whole number below or at a measure. -/
def floor (m : Measure) : Int :=
  match m.ratio? with
  | some (n, d) => n.fdiv d
  | none => 0

/-- The whole number between zero and a measure that is nearest to it. -/
def truncate (m : Measure) : Int :=
  match m.ratio? with
  | some (n, d) => n.tdiv d
  | none => 0

end Measure

/-- The name of a level. -/
def levelName (level : Int) : String :=
  if level = 50 then "CRITICAL"
  else if level = 40 then "ERROR"
  else if level = 30 then "WARNING"
  else if level = 20 then "INFO"
  else if level = 10 then "DEBUG"
  else if level = 0 then "NOTSET"
  else "Level " ++ toString level

/-- The attributes that describe a call, in the order in which they are written. -/
def callFieldNames : List Text :=
  ["procedure".toList, "return_variable".toList, "slot_count".toList, "parameter_count".toList]

/-- The attributes that describe a call. A count that is not known is left out. -/
def callFields (procedure : Text) (returnVariable : Option Text)
    (slotCount parameterCount : Option Int) : Table Json :=
  let text (t : Text) : Json := .leaf (.text t)
  let count (name : String) (n : Option Int) : Table Json :=
    (n.map fun n => (name.toList, Tree.leaf (.int n))).toList
  [("procedure".toList, text procedure),
   ("return_variable".toList, (returnVariable.map text).getD (.leaf .null))] ++
    count "slot_count" slotCount ++ count "parameter_count" parameterCount

/-- A log record. -/
structure LogRecord where
  logger : Text
  level : Int
  /-- The file that the record comes from. -/
  path : Text
  line : Int
  function : Option Text
  template : Text
  args : TemplateArgs := .sequence []
  created : Measure
  milliseconds : Measure
  attributes : Table Datum
  exception : Option Report

namespace LogRecord

/-- What follows the last slash of a path. -/
def baseName (path : Text) : Text := (path.splitOn '/').getLastD []

/-- A file name without its extension. Points at the start of a name begin none. -/
def stem (file : Text) : Text :=
  match file.lastIndexOf? '.' with
  | some i => if (file.take i).all (· = '.') then file else file.take i
  | none => file

/-- The attribute of a name. -/
def attribute? (r : LogRecord) (name : String) : Option Datum := r.attributes.get? name.toList

/-- A part of the record, or the attribute in its place. -/
def part (r : LogRecord) (name : String) (own : Json) : Json :=
  ((r.attribute? name).map Datum.toJson).getD own

/-- A measure of the record, or the number in its place. -/
def measure (r : LogRecord) (name : String) (own : Measure) : Measure :=
  match r.attribute? name with
  | some (.leaf (.scalar s)) => if s.ratio?.isSome then s else own
  | _ => own

/-- When the record was made. -/
def timestamp (r : LogRecord) : String :=
  Clock.timestamp (Measure.floor (r.measure "created" r.created))
    (Measure.truncate (r.measure "msecs" r.milliseconds))

/-- The message, its directives replaced. -/
def message (r : LogRecord) : Except Template.Fault Text :=
  Template.fill (((r.attribute? "msg").map Datum.text).getD r.template)
    (((r.attribute? "args").map TemplateArgs.whole).getD r.args)

/-- A report as it is written into a log. -/
def exceptionText (report : Report) : Text :=
  let name := "sqlproc.exceptions.".toList ++ report.topic.name.toList
  if report.message.isEmpty then name else name ++ ": ".toList ++ report.message

/-- The fields of a record with a message, in the order in which they are written. -/
def fields (r : LogRecord) (message : Text) : Table Json :=
  let text (t : Text) : Json := .leaf (.text t)
  [("timestamp".toList, text r.timestamp.toList),
   ("level".toList, r.part "levelname" (text (levelName r.level).toList)),
   ("logger".toList, r.part "name" (text r.logger)),
   ("message".toList, text message),
   ("module".toList, r.part "module" (text (stem (baseName r.path)))),
   ("function".toList, r.part "funcName" ((r.function.map text).getD (.leaf .null))),
   ("line".toList, r.part "lineno" (.leaf (.int r.line)))] ++
    callFieldNames.filterMap (fun name => (r.attributes.get? name).map fun d => (name, d.toJson)) ++
    (r.exception.map fun report => ("exception".toList, text (exceptionText report))).toList

/-- The record as one JSON object. -/
def structured (r : LogRecord) : Except Template.Fault String := do
  return Json.encode (.table (r.fields (← r.message)))

/-- The record as one line of text. -/
def plain (r : LogRecord) : Except Template.Fault String := do
  return r.timestamp ++ " - " ++ String.ofList r.logger ++ " - " ++ levelName r.level ++ " - " ++
    String.ofList (← r.message)

/-- The names of the parts of a record. -/
def partNames : List String :=
  ["name", "msg", "args", "levelname", "levelno", "pathname", "filename", "module", "exc_info",
   "exc_text", "stack_info", "lineno", "funcName", "created", "msecs", "relativeCreated",
   "thread", "threadName", "processName", "process", "message", "asctime"]

/-- The first attribute with the name of a part. -/
def taken? (r : LogRecord) : Option Text :=
  (r.attributes.map (·.1)).find? fun name => partNames.contains (String.ofList name)

end LogRecord

end ProcCall
