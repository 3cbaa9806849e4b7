import Tabular.Sql.Constraint

/-!
The definition of a table: its name, and its columns with the types declared for them. What else
is said of the table is read and left out.
-/
namespace Tabular.Sql

structure Column where
  name : String
  type? : Option String
  deriving DecidableEq, Repr, Inhabited

structure TableDefinition where
  table : String
  columns : List Column
  deriving DecidableEq, Repr, Inhabited

namespace Reader

variable (nested : Nested)

/-! ## Columns -/

/-- Words that follow a column without a type, and are no types themselves. -/
def typelessWords : List String :=
  ["CONSTRAINT", "PRIMARY", "NOT", "UNIQUE", "CHECK", "DEFAULT", "COLLATE", "REFERENCES",
    "GENERATED", "AS"]

def columnType? : Reader (Option String) := do
  match ← peek with
  | some (.word _ capitals) =>
    if typelessWords.contains capitals then return none else return some (← dataType).shown
  | some (.quoted ..) => return some (← dataType).shown
  | _ => return none

def column : Reader Column := do
  let name := (← identifier).text
  let type? ← columnType?
  columnConstraints nested
  return { name, type? }

/-- One entry in the list of columns: a column, or a constraint of the whole table, which gives
none. A string is not taken for a name here. -/
def entry : Reader (Option Column) := do
  if ← tableConstraint? nested then return none
  else
    require <| ahead fun tokens => (tokens.head?.map Token.isName).getD false
    return some (← column nested)

def columns : Reader (List Column) := do
  if ← symbol? "(" then
    if ← symbol? ")" then return []
    else
      let entries ← list (entry nested)
      symbol ")"
      return entries.filterMap id
  else return []

/-! ## Storage -/

def option : Reader Unit := do
  skipIdentifier
  symbol "="
  expression nested

def options? (opening : String) : Reader Bool := do
  if ← keyword? opening then
    parenthesized do
      if ← atSymbol ")" then return false
      else
        skipList (option nested)
        return true
  else return false

def delimiterWords : String → List String
  | "COLLECTION" => ["ITEMS", "TERMINATED", "BY"]
  | "MAP" => ["KEYS", "TERMINATED", "BY"]
  | "NULL" => ["DEFINED", "AS"]
  | _ => ["TERMINATED", "BY"]

def rowFormat : Reader Unit := do
  keyword "FORMAT"
  if ← keyword? "SERDE" then
    let _ ← literalString
  else
    let _ ← keyword? "DELIMITED"
    loop do
      match ← oneOf? ["FIELDS", "COLLECTION", "MAP", "LINES", "NULL"] with
      | none => return false
      | some what =>
        if ← keywords? (delimiterWords what) then
          skipIdentifier
          if what = "FIELDS" then whenever (keywords? ["ESCAPED", "BY"]) skipIdentifier
          return true
        else return false

def storageFormat : Reader Unit := do
  keyword "AS"
  if ← keyword? "INPUTFORMAT" then
    expression nested
    keyword "OUTPUTFORMAT"
    expression nested
  else fileFormat

def fileClauses : Reader Unit := loop do
  if ← keyword? "ROW" then
    rowFormat
    return true
  else if ← keyword? "STORED" then
    storageFormat nested
    return true
  else if ← keyword? "LOCATION" then
    let _ ← literalString
    return true
  else if ← keywords? ["WITH", "SERDEPROPERTIES"] then
    parenthesized (skipList (option nested))
    return true
  else return false

def partitions? : Reader Unit := whenever (keywords? ["PARTITIONED", "BY"]) do
  let _ ← parenthesized (list (column nested))

/-! ## Options without parentheses -/

def names : Reader Unit := items skipIdentifier

def tablespace : Reader Unit := do
  let _ ← symbol? "="
  match ← next with
  | .word .. | .quoted .. | .string _ =>
    whenever (keyword? "STORAGE") do
      let _ ← symbol? "="
      match ← next with
      | .word text _ | .quoted _ text =>
        if capitalized text != "DISK" && capitalized text != "MEMORY" then mismatch
      | _ => mismatch
  | _ => mismatch

def engine : Reader Unit := do
  let _ ← symbol? "="
  match ← next with
  | .word .. | .quoted .. =>
    if ← atSymbol "(" then names
  | _ => mismatch

def valuedOptions : List (List String) :=
  [["DEFAULT", "CHARSET"], ["CHARSET"], ["DEFAULT", "CHARACTER", "SET"], ["CHARACTER", "SET"],
    ["DEFAULT", "COLLATE"], ["COLLATE"], ["DATA", "DIRECTORY"], ["INDEX", "DIRECTORY"],
    ["KEY_BLOCK_SIZE"], ["ROW_FORMAT"], ["PACK_KEYS"], ["STATS_AUTO_RECALC"],
    ["STATS_PERSISTENT"], ["STATS_SAMPLE_PAGES"], ["DELAY_KEY_WRITE"], ["COMPRESSION"],
    ["ENCRYPTION"], ["MAX_ROWS"], ["MIN_ROWS"], ["AUTOEXTEND_SIZE"], ["AVG_ROW_LENGTH"],
    ["CHECKSUM"], ["CONNECTION"], ["ENGINE_ATTRIBUTE"], ["PASSWORD"],
    ["SECONDARY_ENGINE_ATTRIBUTE"], ["INSERT_METHOD"], ["AUTO_INCREMENT"]]

def anyOf? : List (List String) → Reader Bool
  | [] => return false
  | words :: more => do
      if ← keywords? words then return true else anyOf? more

def plainOption? : Reader Bool := do
  if ← keywords? ["START", "TRANSACTION"] then return true
  else
    match ← oneOf? ["COMMENT", "ENGINE", "TABLESPACE", "UNION"] with
    | some "COMMENT" =>
      let _ ← symbol? "="
      match ← next with
      | .string _ => return true
      | _ => mismatch
    | some "ENGINE" =>
      engine
      return true
    | some "TABLESPACE" =>
      tablespace
      return true
    | some _ =>
      let _ ← symbol? "="
      names
      return true
    | none =>
      if ← anyOf? valuedOptions then
        let _ ← symbol? "="
        if (← attempt value).isNone then skipIdentifier
        return true
      else return false

/-- Options without parentheses. Commas between them are of no account. -/
def plainOptions : Reader Unit := loop do
  if ← plainOption? then
    let _ ← symbol? ","
    return true
  else return false

/-! ## Tables -/

def tableOptions : Reader Unit := do
  let described ← options? nested "WITH"
  let properties ← options? nested "TBLPROPERTIES"
  if !described && !properties then plainOptions

def tableOrder? : Reader Unit := whenever (keywords? ["ORDER", "BY"]) do
  if ← atSymbol "(" then items (expression nested) else expression nested

def commitRule? : Reader Unit := whenever (keywords? ["ON", "COMMIT"]) do
  require (keywords? ["DELETE", "ROWS"] <||> keywords? ["PRESERVE", "ROWS"] <||> keyword? "DROP")

def cluster? : Reader Unit := whenever (keywords? ["ON", "CLUSTER"]) skipIdentifier

/-- The table that a new one is made like, if it is given. It need not be named. -/
def model? (introduced : Reader Bool) : Reader Unit := whenever introduced do
  let _ ← venture objectName

def createTable : Reader TableDefinition := do
  let _ ← keywords? ["IF", "NOT", "EXISTS"]
  let table := shownName (← objectName)
  cluster?
  model? (keyword? "LIKE" <||> keyword? "ILIKE")
  model? (keyword? "CLONE")
  let columns ← columns nested
  let _ ← keywords? ["WITHOUT", "ROWID"]
  partitions? nested
  fileClauses nested
  whenever (keyword? "INHERITS") (parenthesized (skipList skipName))
  tableOptions nested
  tableOrder? nested
  commitRule?
  let _ ← keyword? "STRICT"
  whenever (keyword? "AS") nested.query
  return { table, columns }

def createExternalTable : Reader TableDefinition := do
  keyword "TABLE"
  let _ ← keywords? ["IF", "NOT", "EXISTS"]
  let table := shownName (← objectName)
  let columns ← columns nested
  partitions? nested
  fileClauses nested
  let _ ← options? nested "TBLPROPERTIES"
  return { table, columns }

end Reader

end Tabular.Sql
