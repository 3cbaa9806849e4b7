import Tabular.Sql.Session

/-!
Statements and texts of them. A statement is looked into only if it defines a table.
-/
namespace Tabular.Sql

/-- A statement, of which only table definitions are looked into. -/
inductive Statement where
  | createTable (definition : TableDefinition)
  | other
  deriving DecidableEq, Repr, Inhabited

namespace Reader

def other (rest : Reader Unit) : Reader Statement := do
  rest
  return .other

def queryWords : List String := ["SELECT", "WITH", "VALUES", "FROM"]

def statementOf (nested : Nested) (inner : Reader Unit) : Reader Statement := do
  if ← keyword? "CREATE" then
    match ← creation nested with
    | some definition => return .createTable definition
    | none => return .other
  else if ← atKeyword queryWords <||> atSymbol "(" then other nested.query
  else if ← atKeyword ["REPLACE"] then other (insertion nested)
  else if ← keyword? "INSERT" then other (insertion nested)
  else if ← keyword? "UPDATE" then other (update nested)
  else if ← keyword? "DELETE" then other (deletion nested)
  else if ← keyword? "DROP" then other (removal nested)
  else if ← keyword? "ALTER" then other (alteration nested)
  else other (sessionStatement nested inner (← oneOf sessionWords))

/-- A statement, where the number of levels left is given. It takes up one of them. -/
def statement : Nat → Reader Statement
  | 0 => throw .tooDeep
  | levels + 1 =>
      statementOf (Nested.within levels) do
        let _ ← statement levels

def depthLimit : Nat := 50

/-- The next statement, if there is one more. Empty statements are none. What follows a statement
without a semicolon is passed over from `END` on, and may be nothing else. -/
def nextStatement? (first : Bool) : Reader (Option Statement) := do
  let parted ← symbol? ";"
  loop (symbol? ";")
  if (← peek).isNone then return none
  else if first || parted then return some (← statement depthLimit)
  else if ← atKeyword ["END"] then return none
  else mismatch

def statements : Reader (List Statement) := do
  match ← nextStatement? true with
  | some statement => return statement :: (← collect (nextStatement? false))
  | none => return []

end Reader

def statements? (sql : String) : Except Fault (List Statement) :=
  match Token.ofText sql.toList with
  | none => .error .mismatch
  | some tokens =>
    match Reader.statements tokens with
    | .ok statements _ => .ok statements
    | .error fault _ => .error fault

end Tabular.Sql
