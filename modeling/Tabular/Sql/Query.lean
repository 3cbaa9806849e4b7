import Tabular.Sql.Expression

/-!
Queries and the statements that change rows, which can stand in place of a query. All there is to
know of them is where they end. A reader that is named for a clause or a statement reads what
follows its first word.
-/
namespace Tabular.Sql

namespace Reader

variable (nested : Nested)

/-! ## Aliases -/

/-- Words that go on with a query, so that they cannot be aliases unless that is said. -/
def clauseWords : List String :=
  ["WITH", "EXPLAIN", "ANALYZE", "SELECT", "WHERE", "GROUP", "SORT", "HAVING", "ORDER", "TOP",
    "LATERAL", "VIEW", "LIMIT", "OFFSET", "FETCH", "UNION", "EXCEPT", "INTERSECT", "MINUS",
    "CLUSTER", "DISTRIBUTE", "RETURNING", "FROM", "END"]

def columnClauseWords : List String := clauseWords ++ ["EXCLUDE", "INTO"]

def tableClauseWords : List String :=
  clauseWords ++ ["PIVOT", "UNPIVOT", "ON", "JOIN", "INNER", "CROSS", "FULL", "LEFT", "RIGHT",
    "NATURAL", "USING", "GLOBAL", "ANTI", "SEMI", "ASOF", "MATCH_CONDITION", "OUTER", "SET",
    "QUALIFY", "WINDOW", "FOR", "PARTITION", "PREWHERE", "SETTINGS", "FORMAT", "START", "CONNECT",
    "MATCH_RECOGNIZE", "SAMPLE", "TABLESAMPLE", "OPEN"]

/-- An alias, which may be any word behind `AS` but else none of the reserved ones. -/
def alias? (reserved : List String) : Reader Bool := do
  let said ← keyword? "AS"
  let found ← take? fun token => match token with
    | .word _ capitals => said || !reserved.contains capitals
    | .quoted .. | .string _ => true
    | _ => false
  if said && !found then mismatch else return found

def aliasColumns : Reader Unit := do
  let _ ← parenthesized? <| skipList do
    skipIdentifier
    let _ ← attempt skipType

def tableAlias : Reader Unit := whenever (alias? tableClauseWords) aliasColumns

/-! ## Selections -/

def selection : Reader Unit := do
  match ← starOrExpression nested with
  | .star => pure ()
  | .name text =>
    if capitalized text = "FROM" then mismatch
    else
      let _ ← alias? columnClauseWords
  | .other =>
    let _ ← alias? columnClauseWords

def selections : Reader Unit := skipList (selection nested)

def distinctColumns : Reader Unit := whenever (keyword? "ON") (items (expression nested))

def topRows : Reader Unit := do
  if (← parenthesized? (expression nested)).isNone then
    let _ ← unsigned
  let _ ← keyword? "PERCENT"
  let _ ← keywords? ["WITH", "TIES"]

/-! ## Tables -/

def sample? : Reader Unit := whenever (return (← oneOf? ["TABLESAMPLE", "SAMPLE"]).isSome) do
  let _ ← oneOf? ["BERNOULLI", "ROW", "SYSTEM", "BLOCK"]
  let size : Reader Unit := do
    if (← attempt (expression nested)).isNone then
      match ← next with
      | .word .. | .quoted .. => pure ()
      | _ => mismatch
    let _ ← oneOf? ["ROWS", "PERCENT"]
  let bucket : Reader Unit := do
    let _ ← plainNumber
    keywords ["OUT", "OF"]
    let _ ← plainNumber
    whenever (keyword? "ON") (expression nested)
  let sized? ← parenthesized? do
    if ← keyword? "BUCKET" then bucket else size
  if sized?.isNone then size
  if (← oneOf? ["REPEATABLE", "SEED"]).isSome then
    let _ ← parenthesized plainNumber
  whenever (keyword? "OFFSET") (expression nested)

def tableArguments? : Reader Unit := do
  let _ ← parenthesized? do
    if !(← atSymbol ")") then skipList (argument nested)

def namedTable : Reader Unit := do
  skipName
  tableArguments? nested
  let _ ← keywords? ["WITH", "ORDINALITY"]
  tableAlias
  if ← ahead fun tokens => match tokens with
    | token :: .symbol "(" :: _ => token.isKeyword "WITH"
    | _ => false
  then
    keyword "WITH"
    parenthesized (skipList (expression nested))
  sample? nested

def derivedTable : Reader Unit := do
  nested.query
  symbol ")"
  tableAlias

def lateralTable : Reader Unit := do
  if ← symbol? "(" then derivedTable nested
  else
    skipName
    symbol "("
    if !(← symbol? ")") then
      skipList (argument nested)
      symbol ")"
    tableAlias

def joinCondition (natural : Bool) : Reader Unit := do
  if !natural then
    if ← keyword? "ON" then expression nested
    else whenever (keyword? "USING") (parenthesized (skipList skipName))

def joinWords? (natural : Bool) : Reader Bool := do
  match ← oneOf? ["INNER", "JOIN", "LEFT", "RIGHT", "ANTI", "SEMI", "FULL", "STRAIGHT_JOIN"] with
  | some "JOIN" | some "STRAIGHT_JOIN" => return true
  | some "LEFT" | some "RIGHT" =>
    if (← oneOf ["OUTER", "SEMI", "ANTI", "JOIN"]) != "JOIN" then keyword "JOIN"
    return true
  | some "FULL" =>
    let _ ← keyword? "OUTER"
    keyword "JOIN"
    return true
  | some _ =>
    keyword "JOIN"
    return true
  | none => if natural then mismatch else return false

def join? (table : Reader Unit) : Reader Bool := do
  let _ ← keyword? "GLOBAL"
  if ← keyword? "CROSS" then
    let _ ← oneOf ["JOIN", "APPLY"]
    table
    return true
  else if ← keyword? "OUTER" then
    keyword "APPLY"
    table
    return true
  else if ← keyword? "ASOF" then
    keyword "JOIN"
    table
    keyword "MATCH_CONDITION"
    parenthesized (expression nested)
    joinCondition nested false
    return true
  else
    let natural ← keyword? "NATURAL"
    if ← joinWords? natural then
      table
      joinCondition nested natural
      return true
    else return false

def joins (table : Reader Unit) : Reader Bool := do
  let found ← collect do return if ← join? nested table then some () else none
  return !found.isEmpty

/-- A table, and whether it is a join in parentheses. Parentheses are nested no deeper than there
are tokens in the budget. A table alone cannot stand in them. -/
def tableWithin : List Token → Reader Bool
  | [] => mismatch
  | _ :: budget => do
      if ← keyword? "LATERAL" then
        lateralTable nested
        return false
      else if ← keyword? "TABLE" then
        parenthesized (expression nested)
        tableAlias
        return false
      else if ← symbol? "(" then
        if (← attempt (derivedTable nested)).isSome then return false
        else
          let joined ← tableWithin budget
          let more ← joins nested do
            let _ ← tableWithin budget
          if joined || more then
            symbol ")"
            tableAlias
            return true
          else mismatch
      else
        namedTable nested
        return false

def table : Reader Unit := do
  let _ ← tableWithin nested (← get)

def joinedTable : Reader Unit := do
  table nested
  let _ ← joins nested (table nested)

def joinedTables : Reader Unit := skipList (joinedTable nested)

/-! ## Clauses -/

def condition? : Reader Unit := whenever (keyword? "WHERE") (expression nested)

def returned? : Reader Unit := whenever (keyword? "RETURNING") (selections nested)

def order? : Reader Unit := whenever (keywords? ["ORDER", "BY"]) (sortKeys nested)

def lateralViews : Reader Unit := loop do
  if ← keywords? ["LATERAL", "VIEW"] then
    let _ ← keyword? "OUTER"
    expression nested
    skipName
    skipList do
      let _ ← alias? ["WHERE", "GROUP", "CLUSTER", "HAVING", "LATERAL"]
    return true
  else return false

def groups? : Reader Unit := whenever (keywords? ["GROUP", "BY"]) do
  if !(← keyword? "ALL") then skipList (expression nested)
  whenever (keywords? ["GROUPING", "SETS"]) <| parenthesized <| skipList do
    if (← parenthesized? do
      if !(← atSymbol ")") then skipList (expression nested)).isNone
    then expression nested

def namedWindow : Reader Unit := do
  skipIdentifier
  keyword "AS"
  symbol "("
  window nested (intervalEnd nested)

def windows? : Reader Unit := do
  let named : Reader Bool := do
    if ← keyword? "WINDOW" then
      skipList (namedWindow nested)
      return true
    else return false
  let first ← named
  if ← keyword? "QUALIFY" then
    expression nested
    if !first then
      let _ ← named

def intoTable : Reader Unit := do
  let _ ← oneOf? ["TEMP", "TEMPORARY"]
  let _ ← keyword? "UNLOGGED"
  let _ ← keyword? "TABLE"
  skipName

def selectEnd : Reader Unit := do
  let all ← keyword? "ALL"
  if ← keyword? "DISTINCT" then
    if all then mismatch else distinctColumns nested
  whenever (keyword? "TOP") (topRows nested)
  selections nested
  whenever (keyword? "INTO") intoTable
  whenever (keyword? "FROM") (joinedTables nested)
  lateralViews nested
  condition? nested
  groups? nested
  whenever (keywords? ["CLUSTER", "BY"]) (skipList (expression nested))
  whenever (keywords? ["DISTRIBUTE", "BY"]) (skipList (expression nested))
  whenever (keywords? ["SORT", "BY"]) (sortKeys nested)
  whenever (keyword? "HAVING") (expression nested)
  windows? nested

def rows : Reader Unit := skipList do
  let _ ← keyword? "ROW"
  parenthesized (skipList (expression nested))

/-- What follows `TABLE` as a query: a name, of which at most one point is taken note. Three tokens
are taken in any case. -/
def wholeTable : Reader Unit := fun tokens =>
  let rest := tokens.drop 3
  match tokens with
  | first :: .symbol "." :: third :: _ =>
    if first.isName && third.isName then .ok () rest else .error .mismatch rest
  | first :: _ => if first.isName then .ok () rest else .error .mismatch rest
  | [] => .error .mismatch []

def unionRule : Reader Unit := do
  if !(← keywords? ["DISTINCT", "BY", "NAME"]) then
    if !(← keywords? ["BY", "NAME"]) then
      if ← keyword? "ALL" then
        let _ ← keywords? ["BY", "NAME"]
      else
        let _ ← keyword? "DISTINCT"

def unionPower : List Token → Nat
  | .word _ "UNION" :: _ | .word _ "EXCEPT" :: _ | .word _ "MINUS" :: _ => 10
  | .word _ "INTERSECT" :: _ => 20
  | _ => 0

/-- The body of a query: selections united by words that bind tighter than the given power. There
are no more of them than tokens in the budget. -/
def bodyWithin : List Token → Nat → Reader Unit
  | [], _ => mismatch
  | _ :: budget, power => do
      if ← keyword? "SELECT" then selectEnd nested
      else if ← symbol? "(" then
        nested.query
        symbol ")"
      else if ← keyword? "VALUES" then rows nested
      else
        keyword "TABLE"
        wholeTable
      loop do
        let binding := unionPower (← get)
        if binding ≤ power then return false
        else
          let _ ← next
          unionRule
          bodyWithin budget binding
          return true

def body : Reader Unit := do bodyWithin nested (← get) 0

def offsetEnd : Reader Unit := do
  expression nested
  let _ ← oneOf? ["ROW", "ROWS"]

def limit? : Reader Unit := do
  let offset ← keyword? "OFFSET"
  if offset then offsetEnd nested
  if ← keyword? "LIMIT" then
    if ← keyword? "ALL" then
      if !offset then whenever (keyword? "OFFSET") (offsetEnd nested)
    else
      expression nested
      if !offset then
        if ← symbol? "," then expression nested
        else whenever (keyword? "OFFSET") (offsetEnd nested)

def fetchEnd : Reader Unit := do
  let _ ← oneOf? ["FIRST", "NEXT"]
  if (← oneOf? ["ROW", "ROWS"]).isNone then
    skipValue
    let _ ← keyword? "PERCENT"
    let _ ← oneOf? ["ROW", "ROWS"]
  if !(← keyword? "ONLY") then
    let _ ← keywords? ["WITH", "TIES"]

def purposes : Reader Unit := loop do
  if ← keyword? "FOR" then
    if ← keyword? "BROWSE" then return false
    else
      let _ ← oneOf ["UPDATE", "SHARE"]
      whenever (keyword? "OF") skipName
      if !(← keyword? "NOWAIT") then
        let _ ← keywords? ["SKIP", "LOCKED"]
      return true
  else return false

/-! ## Statements that change rows -/

def assignment : Reader Unit := do
  if (← parenthesized? (skipList skipName)).isNone then skipName
  symbol "="
  expression nested

def assignments : Reader Unit := skipList (assignment nested)

def conflictRule? : Reader Unit := do
  let rule? ← attempt do
    keyword "OR"
    let _ ← oneOf ["REPLACE", "ROLLBACK", "ABORT", "FAIL", "IGNORE"]
  if rule?.isNone then
    let _ ← keyword? "REPLACE"

def fileFormat : Reader Unit := do
  let _ ← oneOf ["AVRO", "JSONFILE", "ORC", "PARQUET", "RCFILE", "SEQUENCEFILE", "TEXTFILE"]

def conflictEnd : Reader Unit := do
  if ← keyword? "CONFLICT" then
    if ← keywords? ["ON", "CONSTRAINT"] then skipName else columnList?
    keyword "DO"
    if !(← keyword? "NOTHING") then
      keywords ["UPDATE", "SET"]
      assignments nested
      condition? nested
  else
    keywords ["DUPLICATE", "KEY", "UPDATE"]
    assignments nested

/-- The columns that an insertion fills, and its partition, unless a query follows at once. -/
def filledColumns : Reader Unit := do
  if !(← ahead fun tokens => match tokens with
    | .symbol "(" :: token :: _ => token.isKeyword "SELECT"
    | _ => false)
  then
    columnList?
    whenever (keyword? "PARTITION") (parenthesized (skipList (expression nested)))

/-- What follows `INSERT`, or a statement from `REPLACE` on. -/
def insertion : Reader Unit := do
  conflictRule?
  let _ ← keyword? "OVERWRITE"
  let _ ← keyword? "INTO"
  let _ ← keyword? "LOCAL"
  if ← keyword? "DIRECTORY" then
    let _ ← literalString
    whenever (keywords? ["STORED", "AS"]) fileFormat
    nested.query
  else
    let _ ← keyword? "TABLE"
    skipName
    if !(← keywords? ["DEFAULT", "VALUES"]) then
      filledColumns nested
      if !(← atKeyword ["FORMAT", "SETTINGS"]) then nested.query
    whenever (keyword? "ON") (conflictEnd nested)
    returned? nested

def update : Reader Unit := do
  conflictRule?
  joinedTable nested
  let before ← keyword? "FROM"
  if before then joinedTables nested
  keyword "SET"
  assignments nested
  if !before then whenever (keyword? "FROM") (joinedTables nested)
  condition? nested
  returned? nested
  whenever (keyword? "LIMIT") (expression nested)

def deletion : Reader Unit := do
  if !(← keyword? "FROM") then
    skipList skipName
    keyword "FROM"
  joinedTables nested
  whenever (keyword? "USING") (joinedTables nested)
  condition? nested
  returned? nested
  order? nested
  if ← keyword? "LIMIT" then
    if !(← keyword? "ALL") then expression nested

/-! ## Queries -/

def commonTable : Reader Unit := do
  skipIdentifier
  if !(← keyword? "AS") then
    aliasColumns
    keyword "AS"
  parenthesized nested.query
  whenever (keyword? "FROM") skipIdentifier

def queryOf : Reader Unit := do
  if ← keyword? "WITH" then
    let _ ← keyword? "RECURSIVE"
    skipList (commonTable nested)
  if ← keyword? "INSERT" then insertion nested
  else if ← keyword? "UPDATE" then update nested
  else if ← keyword? "DELETE" then deletion nested
  else
    body nested
    order? nested
    limit? nested
    whenever (keyword? "FETCH") fetchEnd
    purposes

end Reader

/-! ## Depth -/

/-- The readers for what may be nested in a statement, where the number of levels left is
given. -/
def Nested.within : Nat → Nested
  | 0 => { expression := fun _ => throw .tooDeep, query := throw .tooDeep }
  | levels + 1 =>
      let nested := Nested.within levels
      { expression := Reader.expressionAbove nested, query := Reader.queryOf nested }

end Tabular.Sql
