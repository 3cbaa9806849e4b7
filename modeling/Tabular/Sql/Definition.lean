import Tabular.Sql.CreateTable

/-!
The statements that create, alter and drop what is no table, and the ones that alter and drop
tables. All there is to know of them is where they end. A reader that is named for what is done
reads what follows the word for it.
-/
namespace Tabular.Sql

namespace Reader

variable (nested : Nested)

/-! ## Common parts -/

def unlessExists : Reader Unit := do
  let _ ← keywords? ["IF", "NOT", "EXISTS"]

def ifExists : Reader Unit := do
  let _ ← keywords? ["IF", "EXISTS"]

def dependents? : Reader Unit := do
  let _ ← oneOf? ["CASCADE", "RESTRICT"]

def expressions : Reader Unit := parenthesized (skipList (expression nested))

def columnOptions : Reader Unit := loop (columnOption? nested)

/-! ## Views and indexes -/

def viewParameters : Reader Unit := do
  whenever (keyword? "ALGORITHM") do
    symbol "="
    let _ ← oneOf ["UNDEFINED", "MERGE", "TEMPTABLE"]
  whenever (keyword? "DEFINER") do
    symbol "="
    skipName
  whenever (keywords? ["SQL", "SECURITY"]) do
    let _ ← oneOf ["DEFINER", "INVOKER"]

def viewColumns? : Reader Unit := whenever (symbol? "(") do
  if !(← atSymbol ")") then
    skipList do
      skipIdentifier
      columnOptions nested
  symbol ")"

def createView : Reader Unit := do
  let _ ← keyword? "SECURE"
  let _ ← keyword? "MATERIALIZED"
  keyword "VIEW"
  unlessExists
  skipName
  viewColumns? nested
  let _ ← options? nested "WITH"
  whenever (keyword? "CLUSTER") do
    keyword "BY"
    columnList?
  keyword "AS"
  nested.query

def createIndex : Reader Unit := do
  let _ ← keyword? "CONCURRENTLY"
  let guarded ← keywords? ["IF", "NOT", "EXISTS"]
  if guarded || !(← keyword? "ON") then
    skipName
    let _ ← indexKind?
    keyword "ON"
  skipName
  let _ ← indexKind?
  indexColumns nested
  whenever (keyword? "INCLUDE") columnList
  nullsDistinct?
  condition? nested

def createVirtualTable : Reader Unit := do
  keyword "TABLE"
  unlessExists
  skipName
  keyword "USING"
  skipIdentifier
  columnList?

/-! ## Other things that are created -/

def policyRules : Reader Unit := do
  whenever (keyword? "TO") (skipList skipIdentifier)
  whenever (keyword? "USING") (condition nested)
  whenever (keywords? ["WITH", "CHECK"]) (condition nested)

def createPolicy : Reader Unit := do
  skipIdentifier
  keyword "ON"
  skipName
  whenever (keyword? "AS") do
    let _ ← oneOf ["PERMISSIVE", "RESTRICTIVE"]
  whenever (keyword? "FOR") do
    let _ ← oneOf ["ALL", "SELECT", "INSERT", "UPDATE", "DELETE"]
  policyRules nested

def createDomain : Reader Unit := do
  skipName
  keyword "AS"
  skipType
  whenever (keyword? "COLLATE") skipIdentifier
  whenever (keyword? "DEFAULT") (expression nested)
  loop (tableConstraint? nested)

/-- A secret, whose name and place may both be left out, and the kind of it. -/
def createSecret : Reader Unit := do
  unlessExists
  if !(← atSymbol "(") then
    let placed ← keyword? "IN"
    let _ ← venture identifier
    if !placed && (← keyword? "IN") then
      let _ ← venture identifier
  parenthesized do
    keyword "TYPE"
    skipIdentifier
    whenever (symbol? ",") <| skipList do
      skipIdentifier
      skipIdentifier

def createExtension : Reader Unit := do
  unlessExists
  skipIdentifier
  whenever (keyword? "WITH") do
    whenever (keyword? "SCHEMA") skipIdentifier
    whenever (keyword? "VERSION") skipIdentifier
    let _ ← keyword? "CASCADE"

def createSchema : Reader Unit := do
  unlessExists
  if ← keyword? "AUTHORIZATION" then skipIdentifier
  else
    skipName
    whenever (keyword? "AUTHORIZATION") skipIdentifier
  whenever (keywords? ["DEFAULT", "COLLATE"]) (expression nested)
  let _ ← options? nested "OPTIONS"

def createDatabase : Reader Unit := do
  unlessExists
  skipName
  loop do
    if (← oneOf? ["LOCATION", "MANAGEDLOCATION"]).isSome then
      let _ ← literalString
      return true
    else return false
  whenever (keyword? "CLONE") skipName

def createRole : Reader Unit := do
  unlessExists
  skipList skipName
  let _ ← keyword? "WITH"

def createSequence : Reader Unit := do
  unlessExists
  skipName
  whenever (keyword? "AS") skipType
  sequenceOptions
  whenever (keywords? ["OWNED", "BY"]) skipName

/-- The attributes of a composite type, behind the parenthesis that opens them. A comma may stand
behind the last one. -/
def attributes : Reader Unit := do
  let ended ← collect do
    if ← symbol? ")" then return none
    else
      skipIdentifier
      skipType
      whenever (keyword? "COLLATE") skipName
      if !(← symbol? ",") then require (atSymbol ")")
      return some ()
  if ended.isEmpty then mismatch

def createType : Reader Unit := do
  skipName
  keyword "AS"
  if ← keyword? "ENUM" then names
  else if ← symbol? "(" then
    if !(← symbol? ")") then attributes

/-- What follows a word for something that is no table, view or file, given that word. -/
def createNamed (what : String) : Reader Unit :=
  match what with
  | "POLICY" => createPolicy nested
  | "DOMAIN" => createDomain nested
  | "SECRET" => createSecret
  | "EXTENSION" => createExtension
  | "INDEX" => createIndex nested
  | "UNIQUE" => do
      keyword "INDEX"
      createIndex nested
  | "VIRTUAL" => createVirtualTable
  | "SCHEMA" => createSchema nested
  | "DATABASE" => createDatabase
  | "ROLE" => createRole
  | "SEQUENCE" => createSequence
  | "TYPE" => createType
  | _ => mismatch

def replaceableThings : List String := ["POLICY", "DOMAIN", "SECRET"]

def irreplaceableThings : List String :=
  ["EXTENSION", "INDEX", "UNIQUE", "VIRTUAL", "SCHEMA", "DATABASE", "ROLE", "SEQUENCE", "TYPE"]

/-- What follows `CREATE`, and the definition it gives if it is one of a table. -/
def creation : Reader (Option TableDefinition) := do
  let replaces ← keywords? ["OR", "REPLACE"]
  let _ ← keywords? ["OR", "ALTER"]
  let _ ← keyword? "LOCAL"
  let _ ← keyword? "GLOBAL"
  let _ ← keyword? "TRANSIENT"
  let _ ← oneOf? ["TEMP", "TEMPORARY"]
  viewParameters
  if ← keyword? "TABLE" then return some (← createTable nested)
  else if ← atKeyword ["MATERIALIZED", "VIEW", "SECURE"] then
    createView nested
    return none
  else if ← keyword? "EXTERNAL" then return some (← createExternalTable nested)
  else
    createNamed nested <| ← oneOf <|
      if replaces then replaceableThings else replaceableThings ++ irreplaceableThings
    return none

/-! ## What is dropped -/

def droppedArgument : Reader Unit := do
  let _ ← oneOf? ["IN", "OUT", "INOUT"]
  skipType
  let _ ← attempt skipType
  whenever (keyword? "DEFAULT" <||> symbol? "=") (expression nested)

def dropFunctions : Reader Unit := do
  ifExists
  skipList do
    skipName
    whenever (symbol? "(") do
      if !(← atSymbol ")") then skipList (droppedArgument nested)
      symbol ")"
  dependents?

def dropNamed (what : String) : Reader Unit := do
  ifExists
  skipList skipName
  let cascade ← keyword? "CASCADE"
  let restrict ← keyword? "RESTRICT"
  let purge ← keyword? "PURGE"
  if cascade && restrict then mismatch
  if what = "ROLE" && (cascade || restrict || purge) then mismatch
  whenever (keyword? "ON") skipName

def removal : Reader Unit := do
  let what ← oneOf
    ["TABLE", "VIEW", "MATERIALIZED", "INDEX", "ROLE", "SCHEMA", "DATABASE", "SEQUENCE", "STAGE",
      "TYPE", "FUNCTION", "PROCEDURE", "POLICY", "CONNECTOR", "DOMAIN", "SECRET", "EXTENSION"]
  match what with
  | "FUNCTION" | "PROCEDURE" => dropFunctions nested
  | "POLICY" =>
    ifExists
    skipIdentifier
    keyword "ON"
    skipName
    dependents?
  | "CONNECTOR" =>
    ifExists
    skipIdentifier
  | "DOMAIN" =>
    ifExists
    skipName
    dependents?
  | "SECRET" =>
    ifExists
    skipIdentifier
    whenever (keyword? "FROM") skipIdentifier
  | "EXTENSION" =>
    ifExists
    skipList skipIdentifier
    dependents?
  | "MATERIALIZED" =>
    keyword "VIEW"
    dropNamed what
  | _ => dropNamed what

/-! ## What is altered -/

def addition : Reader Unit := do
  if ← tableConstraint? nested then
    let _ ← keywords? ["NOT", "VALID"]
  else
    unlessExists
    let partitions ← collect do
      if ← keyword? "PARTITION" then
        expressions nested
        return some ()
      else return none
    if partitions.isEmpty then
      let _ ← keyword? "COLUMN"
      let _ ← column nested

def rename : Reader Unit := do
  if ← keyword? "TO" then skipName
  else
    let _ ← keyword? "COLUMN"
    skipIdentifier
    keyword "TO"
    skipIdentifier

def tablePartRemoval : Reader Unit := do
  if ← keywords? ["IF", "EXISTS", "PARTITION"] <||> keyword? "PARTITION" then expressions nested
  else if ← keyword? "CONSTRAINT" then
    ifExists
    skipIdentifier
    dependents?
  else if ← keywords? ["PRIMARY", "KEY"] then dependents?
  else if ← keywords? ["FOREIGN", "KEY"] then
    skipIdentifier
    dependents?
  else if ← keyword? "INDEX" then skipIdentifier
  else if !(← keywords? ["CLUSTERING", "KEY"]) then
    let _ ← keyword? "COLUMN"
    ifExists
    skipIdentifier
    dependents?

def columnAlteration : Reader Unit := do
  let _ ← keyword? "COLUMN"
  skipIdentifier
  if ← keywords? ["SET", "DEFAULT"] then expression nested
  else if ← keywords? ["SET", "DATA", "TYPE"] <||> keyword? "TYPE" then skipType
  else if ← keywords? ["ADD", "GENERATED"] then
    if !(← keyword? "ALWAYS") then
      let _ ← keywords? ["BY", "DEFAULT"]
    keywords ["AS", "IDENTITY"]
    let _ ← parenthesized? sequenceOptions
  else
    require (keywords? ["SET", "NOT", "NULL"] <||> keywords? ["DROP", "NOT", "NULL"] <||>
      keywords? ["DROP", "DEFAULT"])

def switch (enables : Bool) : Reader Unit := do
  if !(← keywords? ["ROW", "LEVEL", "SECURITY"]) then
    if enables then
      let _ ← oneOf? ["ALWAYS", "REPLICA"]
    let _ ← oneOf ["RULE", "TRIGGER"]
    skipIdentifier

def columnReplacement (renames : Bool) : Reader Unit := do
  let _ ← keyword? "COLUMN"
  skipIdentifier
  if renames then skipIdentifier
  skipType
  columnOptions nested

def replicaIdentity : Reader Unit := do
  if (← oneOf? ["NONE", "FULL", "DEFAULT"]).isNone then
    keywords ["USING", "INDEX"]
    skipIdentifier

/-- One of the things that are done to a table, if it begins with a single word, given that
word. -/
def tableChange (what : String) : Reader Unit := do
  match what with
  | "ADD" => addition nested
  | "RENAME" => rename
  | "DISABLE" => switch false
  | "ENABLE" => switch true
  | "DROP" => tablePartRemoval nested
  | "PARTITION" =>
    expressions nested
    keywords ["RENAME", "TO", "PARTITION"]
    expressions nested
  | "CHANGE" => columnReplacement nested true
  | "MODIFY" => columnReplacement nested false
  | "ALTER" => columnAlteration nested
  | "SWAP" =>
    keyword "WITH"
    skipName
  | "LOCK" =>
    let _ ← symbol? "="
    let _ ← oneOf ["DEFAULT", "EXCLUSIVE", "NONE", "SHARED"]
  | "ALGORITHM" =>
    let _ ← symbol? "="
    let _ ← oneOf ["DEFAULT", "INSTANT", "INPLACE", "COPY"]
  | "AUTO_INCREMENT" =>
    let _ ← symbol? "="
    let _ ← plainNumber
  | _ => mismatch

def settingOfOptions : Reader Unit := do
  if ← keywords? ["SET", "TBLPROPERTIES"] then parenthesized (skipList (option nested))
  else require (options? nested "SET")

def tableAlteration : Reader Unit := do
  if let some what ← oneOf?
      ["ADD", "RENAME", "DISABLE", "ENABLE", "DROP", "PARTITION", "CHANGE", "MODIFY", "ALTER",
        "SWAP", "LOCK", "ALGORITHM", "AUTO_INCREMENT"] then
    tableChange nested what
  else if ← keywords? ["CLUSTER", "BY"] then expressions nested
  else if ← keywords? ["SUSPEND", "RECLUSTER"] <||> keywords? ["RESUME", "RECLUSTER"] then
    pure ()
  else if ← keywords? ["REPLICA", "IDENTITY"] then replicaIdentity
  else if ← keywords? ["VALIDATE", "CONSTRAINT"] then skipIdentifier
  else settingOfOptions nested

def alterTable : Reader Unit := do
  ifExists
  let _ ← keyword? "ONLY"
  skipName
  cluster?
  skipList (tableAlteration nested)
  whenever (keyword? "LOCATION" <||> keywords? ["SET", "LOCATION"]) skipIdentifier

def alterType : Reader Unit := do
  skipName
  if ← keywords? ["RENAME", "TO"] then skipIdentifier
  else if ← keywords? ["ADD", "VALUE"] then
    unlessExists
    skipIdentifier
    if (← oneOf? ["BEFORE", "AFTER"]).isSome then skipIdentifier
  else
    keywords ["RENAME", "VALUE"]
    skipIdentifier
    keyword "TO"
    skipIdentifier

def alteration : Reader Unit := do
  match ← oneOf ["TABLE", "ICEBERG", "VIEW", "INDEX", "TYPE", "POLICY"] with
  | "TABLE" => alterTable nested
  | "ICEBERG" =>
    keyword "TABLE"
    alterTable nested
  | "VIEW" =>
    skipName
    columnList?
    let _ ← options? nested "WITH"
    keyword "AS"
    nested.query
  | "INDEX" =>
    skipName
    keywords ["RENAME", "TO"]
    skipName
  | "TYPE" => alterType
  | _ =>
    skipIdentifier
    keyword "ON"
    skipName
    if ← keywords? ["RENAME", "TO"] then skipIdentifier else policyRules nested

end Reader

end Tabular.Sql
