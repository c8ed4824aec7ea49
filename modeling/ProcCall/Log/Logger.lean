import ProcCall.Log.Event
import ProcCall.Text.Case

/-!
# Loggers

All loggers hang below one root. The root has a level and, once it is set up, a
handler that writes records to a stream.

* `Logger.fullName`: the name of a logger below the root.
* `Logger.configure`: a new setup in place of any earlier one.
* `Logger.check`: which records are refused.
* `Logger.emit`: what the handler writes for a record.
-/

namespace ProcCall

/-- A handler writes records to a stream. -/
structure LogHandler where
  structured : Bool
  stream : Text
  deriving DecidableEq

/-- The root logger: its level, and its handler once it is set up. -/
structure Logger where
  level : Int
  handler : Option LogHandler
  deriving DecidableEq

namespace Logger

/-- The root logger before any setup. -/
def initial : Logger := ⟨0, none⟩

/-- The name of the root logger. -/
def rootName : Text := "sqlproc".toList

/-- The name of a logger below the root; a name that starts like the root's is kept. -/
def fullName : Option Text → Text
  | none => rootName
  | some name => if rootName.isPrefixOf name then name else rootName ++ '.' :: name

/-- Whether a logger hangs below the root. -/
def isBelowRoot (name : Text) : Bool := name = rootName || (rootName ++ ['.']).isPrefixOf name

/-- The level of a name in upper case. -/
def levelOf? (name : Text) : Option Int :=
  [("CRITICAL", 50), ("FATAL", 50), ("ERROR", 40), ("WARNING", 30), ("WARN", 30), ("INFO", 20),
    ("DEBUG", 10), ("NOTSET", 0)].lookup (String.ofList name)

/-- Names in upper case that are known but stand for no level: for the template of plain
records, and for the table of such templates. -/
def otherNames : List (String × Error) :=
  [("BASIC_FORMAT", .notLevel "%(levelname)s:%(name)s:%(message)s".toList),
   ("_STYLES", .notLevelName ("\x7b'%': (<class 'logging.PercentStyle'>, " ++
      "'%(levelname)s:%(name)s:%(message)s'), '\x7b': (<class 'logging.StrFormatStyle'>, " ++
      "'\x7blevelname\x7d:\x7bname\x7d:\x7bmessage\x7d'), " ++
      "'$': (<class 'logging.StringTemplateStyle'>, " ++
      "'$\x7blevelname\x7d:$\x7bname\x7d:$\x7bmessage\x7d')\x7d").toList)]

/-- A setup with a level, a form and a stream. A level of no known name changes nothing. -/
def configure (levelText : Text) (structured : Bool) (stream : Text) : Except Error Logger :=
  let name := levelText.toUpper
  match levelOf? name with
  | some level => .ok ⟨level, some ⟨structured, stream⟩⟩
  | none => .error ((otherNames.lookup (String.ofList name)).getD (.unknownLevel name))

/-- Whether records still go on to the loggers above the root. -/
def propagates (l : Logger) : Bool := l.handler.isNone

/-- The level of a logger without one. -/
def defaultLevel : Int := 30

/-- The least level that is written. A root without a level has the one above it. -/
def threshold (l : Logger) : Int := if l.level = 0 then defaultLevel else l.level

/-- Whether a logger makes records of a level; it makes none of level zero and below. -/
def isEnabled (l : Logger) (name : Text) (level : Int) : Bool :=
  0 < level && (if isBelowRoot name then l.threshold else defaultLevel) ≤ level

/-- Refuses a record that is made and has an attribute with the name of a part. -/
def check (l : Logger) (r : LogRecord) : Except Error Unit :=
  if l.isEnabled r.logger r.level then
    match r.taken? with
    | some name => .error (.attributeTaken name)
    | none => .ok ()
  else .ok ()

/-- What is written for a record, and to which stream. Nothing is written for a record
whose message cannot be filled. -/
def emit (l : Logger) (r : LogRecord) : Option (Text × String) :=
  match l.handler with
  | none => none
  | some h =>
    if isBelowRoot r.logger ∧ l.isEnabled r.logger r.level then
      match if h.structured then r.structured else r.plain with
      | .ok line => some (h.stream, line ++ "\n")
      | .error _ => none
    else none

/-- What is written for some records, by stream. -/
def written (l : Logger) (rs : List LogRecord) : Table String :=
  (rs.filterMap l.emit).foldl
    (fun t (stream, line) => t.put stream ((t.get? stream).getD "" ++ line)) []

end Logger

end ProcCall
