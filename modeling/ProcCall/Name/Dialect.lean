import ProcCall.Error
import ProcCall.Text.Case
import ProcCall.Text.Similar

/-!
# Dialects of procedure names

A dialect fixes the marks around a quoted identifier, the marks that may stand inside
a plain one, and the words that are no plain identifier. Its name may be followed by
settings, which do not change how names are read.

* `Dialect.ofText`: the dialect of a name with settings.
* `Dialect.isReserved`: the words that are no plain identifier.
-/

namespace ProcCall

/-- What the reading of a procedure name depends on. -/
structure Dialect where
  /-- Opening and closing marks of quoted identifiers. -/
  quotes : List (Char × Char)
  /-- Marks around strings, which may stand for identifiers. -/
  strings : List Char := ['\'']
  /-- Whether a backslash has a meaning inside quotes. -/
  backslash : Bool := false
  /-- Marks that start a comment up to the end of the line, two hyphens aside. -/
  commentMarks : List Char := []
  /-- Whether comments nest. -/
  nestedComments : Bool := true
  /-- Marks that are marks only here. -/
  ownMarks : List Char := []
  /-- Marks that may stand inside a plain identifier, but not at its start. -/
  innerMarks : List Char := []
  /-- Whether a plain identifier may start with a digit. -/
  digitsFirst : Bool := false
  /-- The letters in upper case that may follow a zero to start a number of another base,
  with the base. -/
  bases : List (Char × Nat) := []
  /-- Marks before a parameter. -/
  sigils : List Char := ['@']
  /-- Whether a parameter may name another parameter. -/
  nestedParameters : Bool := true
  /-- The mark before the name of a temporary procedure, or at its start inside quotes. -/
  temporaryMark : Option Char := none
  /-- Words in upper case that are no identifier here. -/
  reserved : List String := []
  /-- Words in upper case that take the rest of the text as theirs when they come first. -/
  commands : List String
  /-- Identifiers in upper case that hold a blank or a mark. -/
  phrases : List (List String)

namespace Dialect

/-- Words that take the rest of a text as theirs in every dialect. -/
def commonCommands : List String :=
  ["CALL", "OPTIMIZE", "PREPARE", "VACUUM", "FETCH", "RENAME"]

/-- Identifiers that hold a blank or a mark in every dialect. -/
def commonPhrases : List (List String) :=
  [["DOUBLE", "PRECISION"], ["CHAR", "VARYING"], ["CHARACTER", "VARYING"], ["FOREIGN", "KEY"],
   ["USER-DEFINED"]]

/-- Identifiers between double quotes. -/
def doubleQuoted : Dialect where
  quotes := [('"', '"')]
  commands := "EXECUTE" :: "EXPLAIN" :: "SHOW" :: commonCommands
  phrases := commonPhrases

/-- Words in upper case that say how a string behind them is encoded. -/
def introducers : List String :=
  ["_ARMSCII8", "_ASCII", "_BIG5", "_BINARY", "_CP1250", "_CP1251", "_CP1256", "_CP1257",
   "_CP850", "_CP852", "_CP866", "_CP932", "_DEC8", "_EUCJPMS", "_EUCKR", "_GB18030", "_GB2312",
   "_GBK", "_GEOSTD8", "_GREEK", "_HEBREW", "_HP8", "_KEYBCS2", "_KOI8R", "_KOI8U", "_LATIN1",
   "_LATIN2", "_LATIN5", "_LATIN7", "_MACCE", "_MACROMAN", "_SJIS", "_SWE7", "_TIS620", "_UCS2",
   "_UJIS", "_UTF8", "_UTF16", "_UTF16LE", "_UTF32", "_UTF8MB3", "_UTF8MB4"]

/-- Identifiers between grave accents, strings between quotes of either kind. -/
def graveQuoted : Dialect where
  quotes := [('\x60', '\x60')]
  strings := ['\'', '"']
  backslash := true
  commentMarks := ['#']
  nestedComments := false
  digitsFirst := true
  bases := [('X', 16), ('B', 2)]
  nestedParameters := false
  reserved :=
    ["CHARSET", "DISTINCTROW", "FORCE", "IGNORE", "KEY", "MOD", "SEPARATOR"] ++ introducers
  commands := "EXECUTE" :: "REPLACE" :: "LOCK TABLES" :: "UNLOCK TABLES" :: commonCommands
  phrases := ["SIGNED", "INTEGER"] :: ["UNSIGNED", "INTEGER"] :: ["LOCK", "TABLES"] ::
    ["UNLOCK", "TABLES"] :: commonPhrases

/-- Identifiers between brackets or double quotes. One or two number signs stand before
the name of a temporary procedure. -/
def bracketQuoted : Dialect where
  quotes := [('[', ']'), ('"', '"')]
  innerMarks := ['@', '#']
  bases := [('X', 16)]
  temporaryMark := some '#'
  reserved := ["BEGIN", "OPTION"]
  commands := "EXPLAIN" :: "SHOW" :: "GO" :: "PRINT" :: "END" :: "UPDATE STATISTICS" ::
    commonCommands
  phrases := ["CLUSTERED", "INDEX"] :: ["NONCLUSTERED", "INDEX"] :: ["UPDATE", "STATISTICS"] ::
    commonPhrases

/-- Identifiers between double quotes. A dollar sign may stand inside a plain one, but at
its start is the mark of a parameter. -/
def dollarMarked : Dialect :=
  { doubleQuoted with
    ownMarks := ['$']
    innerMarks := ['$']
    bases := [('X', 16), ('B', 2)]
    sigils := ['@', '$']
    nestedParameters := false
    reserved := ["ONLY"]
    commands := doubleQuoted.commands ++
      ["CONSTRAINT TRIGGER", "DECLARE", "DO", "EXEC", "REFRESH", "REINDEX", "RESET"]
    phrases := ["CONSTRAINT", "TRIGGER"] :: commonPhrases }

/-- The dialects by name. -/
def all : List (String × Dialect) :=
  [("", doubleQuoted), ("athena", doubleQuoted), ("bigquery", graveQuoted),
   ("clickhouse", graveQuoted),
   ("databricks", graveQuoted), ("doris", graveQuoted), ("dremio", doubleQuoted),
   ("drill", graveQuoted), ("druid", doubleQuoted), ("duckdb", dollarMarked),
   ("dune", doubleQuoted), ("exasol", doubleQuoted), ("fabric", bracketQuoted),
   ("hive", graveQuoted), ("materialize", dollarMarked), ("mysql", graveQuoted),
   ("oracle", { doubleQuoted with innerMarks := ['@', '#'] }), ("postgres", dollarMarked),
   ("presto", doubleQuoted), ("prql", doubleQuoted), ("redshift", dollarMarked),
   ("risingwave", dollarMarked), ("singlestore", graveQuoted), ("snowflake", dollarMarked),
   ("solr", graveQuoted), ("spark", graveQuoted), ("spark2", graveQuoted),
   ("sqlite", { doubleQuoted with quotes := [('"', '"'), ('[', ']'), ('\x60', '\x60')] }),
   ("starrocks", graveQuoted), ("tableau", doubleQuoted), ("teradata", doubleQuoted),
   ("trino", doubleQuoted), ("tsql", bracketQuoted)]

/-- Words in upper case that are no identifier in any dialect. -/
def reservedWords : List String :=
  ["ALTER", "AND", "AS", "BETWEEN", "CREATE", "CROSS", "DISTINCT", "DROP", "ELSE", "EXCEPT",
   "FETCH", "FOR", "FROM", "GLOB", "GRANT", "HAVING", "ILIKE", "INNER", "INSERT", "INTERSECT",
   "INTO", "JOIN", "LATERAL", "LIKE", "NOT", "NOTNULL", "ON", "OR", "OUTER", "PARTITIONED_BY",
   "QUALIFY", "REGEXP", "REVOKE", "RLIKE", "ROLLBACK", "SELECT", "STRAIGHT_JOIN",
   "TABLESAMPLE", "THEN", "UNCACHE", "UNION", "USING", "VALUES", "WHEN", "WHERE", "WITH",
   "XOR"]

/-- Whether a word, in letters of either case, is no identifier. -/
def isReserved (d : Dialect) (word : Text) : Bool :=
  let upper := String.ofList word.toUpper
  reservedWords.contains upper || d.reserved.contains upper

/-- Whether a word takes the rest of the text as its own. -/
def isCommand (d : Dialect) (word : Text) : Bool :=
  d.commands.contains (String.ofList word.toUpper)

/-! ### Settings -/

/-- The setting for the case of identifiers. -/
def strategySetting : Text := "normalization_strategy".toList

/-- The names of all settings. -/
def settings : List Text := [strategySetting, "version".toList]

/-- The values of the setting for the case of identifiers, in upper case. -/
def strategies : List Text :=
  ["LOWERCASE".toList, "UPPERCASE".toList, "CASE_SENSITIVE".toList, "CASE_INSENSITIVE".toList,
   "CASE_INSENSITIVE_UPPERCASE".toList]

/-- The value of a setting. -/
inductive SettingValue where
  | absent
  | flag
  | text (t : Text)

/-- A setting, written as a name with or without a value. A name alone is a flag. -/
def setting (t : Text) : Text × SettingValue :=
  match t.splitOn '=' with
  | [name] => (Text.strip name, .flag)
  | [name, value] =>
    let value := Text.strip value
    let isFlag := ["true", "1", "false", "0"].contains (String.ofList value.toLower)
    (Text.strip name, if isFlag then .flag else .text value)
  | name :: _ => (Text.strip name, .absent)
  | [] => ([], .absent)

/-- Whether settings are sound: the case of identifiers has one of its values, and every
name is known. -/
def checkSettings (given : List (Text × SettingValue)) : Except Error Unit := do
  match (given.reverse.lookup strategySetting) with
  | some .flag => .error .strategyIsFlag
  | some (.text value) =>
    if !strategies.contains value.toUpper then .error (.unknownStrategy value.toUpper)
  | _ => pure ()
  match given.find? fun s => !settings.contains s.1 with
  | some (name, _) => .error (.unknownSetting name (Text.closest? name settings))
  | none => pure ()

/-- The names of all dialects but the nameless one. -/
def names : List Text := (all.map (·.1.toList)).filter (!·.isEmpty)

/-- The dialect of a name with settings after it, all between commas. Blanks around the
name are left out. -/
def ofText (t : Text) : Except Error Dialect := do
  if t.isEmpty then return doubleQuoted
  let name := (t.splitOn ',').headD []
  match all.lookup (String.ofList (Text.strip name)) with
  | none => .error (.unknownDialect name (Text.closest? name names))
  | some d =>
    checkSettings ((t.splitOn ',').tail.map setting)
    return d

end Dialect

end ProcCall
