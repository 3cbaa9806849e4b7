import Tabular.Sql.Definition

/-!
The statements that neither query nor define anything: transactions, settings, privileges,
cursors and the like. All there is to know of them is where they end. A reader that is named for a
statement reads what follows the word that begins it.
-/
namespace Tabular.Sql

namespace Reader

variable (nested : Nested)

/-! ## Transactions -/

def isolationLevel : Reader Unit :=
  require <| keywords? ["READ", "UNCOMMITTED"] <||> keywords? ["READ", "COMMITTED"] <||>
    keywords? ["REPEATABLE", "READ"] <||> keyword? "SERIALIZABLE" <||> keyword? "SNAPSHOT"

def transactionMode? : Reader Bool := do
  if ← keywords? ["ISOLATION", "LEVEL"] then
    isolationLevel
    return true
  else keywords? ["READ", "ONLY"] <||> keywords? ["READ", "WRITE"]

/-- The modes of a transaction. A comma may stand between them, and only there. -/
def transactionModes : Reader Unit := whenever transactionMode? <| loop do
  if ← symbol? "," then
    require transactionMode?
    return true
  else transactionMode?

def transactionWord? : Reader Unit := do
  let _ ← oneOf? ["TRANSACTION", "WORK", "TRAN"]

def beginning : Reader Unit := do
  let _ ← oneOf? ["DEFERRED", "IMMEDIATE", "EXCLUSIVE", "TRY", "CATCH"]
  transactionWord?
  transactionModes

def chain? : Reader Unit := do
  transactionWord?
  whenever (keyword? "AND") do
    let _ ← keyword? "NO"
    keyword "CHAIN"

def rollback : Reader Unit := do
  chain?
  whenever (keyword? "TO") do
    let _ ← keyword? "SAVEPOINT"
    skipIdentifier

/-! ## Settings -/

/-- A value of a setting. Nothing follows a query that is one. -/
def setting : Reader Unit := do
  if ← ahead fun tokens => match tokens with
    | .symbol "(" :: token :: _ => token.isKeyword "SELECT" || token.isKeyword "WITH"
    | _ => false
  then parenthesized nested.query
  else expression nested

def equals? : Reader Bool := symbol? "=" <||> keyword? "TO"

def settings : Reader Unit := do
  if ← keyword? "HIVEVAR" then
    match ← next with
    | .sign ':' _ => pure ()
    | _ => mismatch
  else
    let _ ← oneOf? ["SESSION", "LOCAL", "GLOBAL"]
  let role? ← attempt do
    keyword "ROLE"
    skipIdentifier
  if role?.isNone then
    if ← keywords? ["TIME", "ZONE"] <||> keyword? "TIMEZONE" then
      if ← equals? then skipList (setting nested) else expression nested
    else if ← keyword? "CHARACTERISTICS" then
      keywords ["AS", "TRANSACTION"]
      transactionModes
    else if ← keyword? "TRANSACTION" then
      if ← keyword? "SNAPSHOT" then skipValue else transactionModes
    else if ← keyword? "AUTHORIZATION" then skipIdentifier
    else
      skipName
      require equals?
      skipList (setting nested)

def pragma : Reader Unit := do
  let setting : Reader Unit := do
    match ← value with
    | .other => mismatch
    | _ => pure ()
  skipName
  if ← symbol? "(" then
    setting
    symbol ")"
  else whenever (symbol? "=") setting

/-! ## Looking around -/

def shownThings : Reader Unit := do
  loop do
    if (← oneOf? ["FROM", "IN"]).isSome then
      skipName
      return true
    else return false
  if (← oneOf? ["LIKE", "ILIKE"]).isSome then
    let _ ← literalString
  else condition? nested

def untilEnd : Reader Unit := loop do
  if ← atSymbol ";" <||> atSymbol "=" then return false
  else take? fun _ => true

def showing : Reader Unit := do
  let _ ← keyword? "TERSE"
  let extended ← keyword? "EXTENDED"
  let full ← keyword? "FULL"
  let _ ← keyword? "SESSION"
  let _ ← keyword? "GLOBAL"
  let _ ← keyword? "EXTERNAL"
  if (← oneOf? ["COLUMNS", "FIELDS", "TABLES", "VIEWS", "FUNCTIONS"]).isSome then
    shownThings nested
  else if ← keywords? ["MATERIALIZED", "VIEWS"] then shownThings nested
  else if extended || full then mismatch
  else if ← keyword? "CREATE" then
    let _ ← oneOf ["TABLE", "TRIGGER", "EVENT", "FUNCTION", "PROCEDURE", "VIEW"]
    skipName
  else if (← oneOf? ["COLLATION", "DATABASES", "SCHEMAS"]).isSome then shownThings nested
  else untilEnd

/-- What follows the word for an explanation. Explanations cannot be explained. -/
def explanation (statement : Reader Unit) : Reader Unit := do
  if !(← keywords? ["QUERY", "PLAN"] <||> keyword? "ESTIMATE") then
    let _ ← keyword? "ANALYZE"
    let _ ← keyword? "VERBOSE"
    whenever (keyword? "FORMAT") do
      let _ ← symbol? "="
      let _ ← oneOf ["TEXT", "GRAPHVIZ", "JSON", "TREE"]
  let again ← atKeyword ["EXPLAIN", "DESCRIBE", "DESC"]
  match ← attempt statement with
  | some _ => if again then mismatch
  | none =>
    let _ ← oneOf? ["EXTENDED", "FORMATTED"]
    skipName

def analysis : Reader Unit := do
  let _ ← keyword? "TABLE"
  skipName
  loop do
    match ← oneOf? ["PARTITION", "FOR", "CACHE", "NOSCAN", "COMPUTE"] with
    | none => return false
    | some what =>
      match what with
      | "PARTITION" => expressions nested
      | "FOR" =>
        keyword "COLUMNS"
        let _ ← attempt (skipList identifier)
      | "CACHE" => keyword "METADATA"
      | "COMPUTE" => keyword "STATISTICS"
      | _ => pure ()
      return true

/-! ## Rows -/

def truncation : Reader Unit := do
  let _ ← keyword? "TABLE"
  let _ ← keyword? "ONLY"
  skipList skipName
  whenever (keyword? "PARTITION") (expressions nested)
  cluster?

/-- What is done with rows of one kind when tables are merged. Rows are only inserted where none
were there before. -/
def mergeClause : Reader Unit := do
  let missing ← keyword? "NOT"
  keyword "MATCHED"
  let missing ← if missing then
      if ← keywords? ["BY", "SOURCE"] then pure false
      else
        let _ ← keywords? ["BY", "TARGET"]
        pure true
    else pure false
  whenever (keyword? "AND") (expression nested)
  keyword "THEN"
  if missing then
    keyword "INSERT"
    columnList?
    keyword "VALUES"
    rows nested
  else if ← keyword? "UPDATE" then
    keyword "SET"
    assignments nested
  else keyword "DELETE"

def merger : Reader Unit := do
  let _ ← keyword? "INTO"
  table nested
  keyword "USING"
  table nested
  keyword "ON"
  expression nested
  loop do
    if ← keyword? "WHEN" then
      mergeClause nested
      return true
    else return false

/-! ## Privileges -/

def privilege : Reader Unit := do
  if (← oneOf? ["SELECT", "INSERT", "UPDATE", "REFERENCES"]).isSome then columnList?
  else
    let _ ← oneOf
      ["DELETE", "TRUNCATE", "TRIGGER", "EXECUTE", "USAGE", "CONNECT", "CREATE", "TEMPORARY"]

def privileges : Reader Unit := do
  if ← keyword? "ALL" then
    let _ ← keyword? "PRIVILEGES"
  else skipList privilege
  whenever (keyword? "ON") do
    if !(← keywords? ["ALL", "TABLES", "IN", "SCHEMA"] <||>
        keywords? ["ALL", "SEQUENCES", "IN", "SCHEMA"]) then
      let _ ← oneOf? ["SEQUENCE", "DATABASE", "SCHEMA", "TABLE", "VIEW"]
    skipList skipName

def holders : Reader Unit := skipList do
  if !(← keyword? "PUBLIC") then
    let _ ← oneOf? ["ROLE", "USER", "SHARE", "GROUP"]
    skipName

def grantor? : Reader Unit := whenever (keywords? ["GRANTED", "BY"]) skipIdentifier

def grant : Reader Unit := do
  privileges
  keyword "TO"
  holders
  let _ ← keywords? ["WITH", "GRANT", "OPTION"]
  grantor?

def revocation : Reader Unit := do
  privileges
  keyword "FROM"
  holders
  grantor?
  dependents?

/-! ## Cursors and prepared statements -/

def cursor : Reader Unit := do
  skipIdentifier
  let _ ← keyword? "BINARY"
  let _ ← oneOf? ["INSENSITIVE", "ASENSITIVE"]
  if !(← keyword? "SCROLL") then
    let _ ← keywords? ["NO", "SCROLL"]
  keyword "CURSOR"
  if (← oneOf? ["WITH", "WITHOUT"]).isSome then keyword "HOLD"
  keyword "FOR"
  nested.query

def fetching : Reader Unit := do
  match ← oneOf?
    ["NEXT", "PRIOR", "FIRST", "LAST", "ABSOLUTE", "RELATIVE", "FORWARD", "BACKWARD", "ALL"] with
  | some "ABSOLUTE" | some "RELATIVE" | none =>
    let _ ← plainNumber
  | some "FORWARD" | some "BACKWARD" =>
    if !(← keyword? "ALL") then
      let _ ← plainNumber
  | some _ => pure ()
  let _ ← oneOf ["FROM", "IN"]
  skipIdentifier
  whenever (keyword? "INTO") skipName

def preparation (statement : Reader Unit) : Reader Unit := do
  skipIdentifier
  let _ ← parenthesized? (skipList skipType)
  keyword "AS"
  statement

def execution : Reader Unit := do
  skipName
  if (← parenthesized? do
    if !(← atSymbol ")") then skipList (expression nested)).isNone
  then
    let ends ← ahead fun tokens => match tokens with
      | [] => true
      | token :: _ =>
        token.isSymbol ";" || ["USING", "OUTPUT", "DEFAULT"].any token.isKeyword
    if !ends then skipList (expression nested)
  whenever (keyword? "INTO") (skipList skipIdentifier)
  whenever (keyword? "USING") <| skipList do
    expression nested
    whenever (keyword? "AS") skipIdentifier
  let _ ← keyword? "OUTPUT"
  let _ ← keyword? "DEFAULT"

/-! ## Others -/

def attachment : Reader Unit := do
  let _ ← keyword? "DATABASE"
  expression nested
  keyword "AS"
  skipIdentifier

def calling : Reader Unit := do
  skipName
  if ← atSymbol "(" then call nested (intervalEnd nested)

def killing : Reader Unit := do
  let _ ← oneOf? ["CONNECTION", "QUERY"]
  let _ ← unsigned

def tableRenaming : Reader Unit := do
  keyword "TABLE"
  skipList do
    skipName
    keyword "TO"
    skipName

def raising : Reader Unit := do
  if ← keywords? ["USING", "MESSAGE"] then
    symbol "="
    expression nested
  else
    let _ ← attempt (expression nested)

def sessionStatement (statement : Reader Unit) (opening : String) : Reader Unit := do
  match opening with
  | "BEGIN" => beginning
  | "START" =>
    keyword "TRANSACTION"
    transactionModes
  | "COMMIT" | "END" => chain?
  | "ROLLBACK" => rollback
  | "SAVEPOINT" | "OPEN" => skipIdentifier
  | "RELEASE" =>
    let _ ← keyword? "SAVEPOINT"
    skipIdentifier
  | "SET" => settings nested
  | "PRAGMA" => pragma
  | "SHOW" => showing nested
  | "USE" => skipName
  | "EXPLAIN" | "DESCRIBE" | "DESC" => explanation statement
  | "ANALYZE" => analysis nested
  | "TRUNCATE" => truncation nested
  | "MERGE" => merger nested
  | "GRANT" => grant
  | "REVOKE" => revocation
  | "DECLARE" => cursor nested
  | "FETCH" => fetching
  | "CLOSE" => skipIdentifier
  | "PREPARE" => preparation statement
  | "EXECUTE" | "EXEC" => execution nested
  | "DEALLOCATE" =>
    let _ ← keyword? "PREPARE"
    skipIdentifier
  | "ATTACH" => attachment nested
  | "CALL" => calling nested
  | "KILL" => killing
  | "DISCARD" =>
    let _ ← oneOf ["ALL", "PLANS", "SEQUENCES", "TEMP", "TEMPORARY"]
  | "ASSERT" =>
    expression nested
    whenever (keyword? "AS") (expression nested)
  | "PRINT" => expression nested
  | "RETURN" =>
    let _ ← attempt (expression nested)
  | "RENAME" => tableRenaming
  | "RAISE" => raising nested
  | _ => mismatch

def sessionWords : List String :=
  ["BEGIN", "START", "COMMIT", "END", "ROLLBACK", "SAVEPOINT", "OPEN", "RELEASE", "SET", "PRAGMA",
    "SHOW", "USE", "EXPLAIN", "DESCRIBE", "DESC", "ANALYZE", "TRUNCATE", "MERGE", "GRANT",
    "REVOKE", "DECLARE", "FETCH", "CLOSE", "PREPARE", "EXECUTE", "EXEC", "DEALLOCATE", "ATTACH",
    "CALL", "KILL", "DISCARD", "ASSERT", "PRINT", "RETURN", "RENAME", "RAISE"]

end Reader

end Tabular.Sql
