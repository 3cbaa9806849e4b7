import Tabular.Error
import Tabular.Sql.Statement
import Tabular.Text

/-!
What a table tells its host while it is being connected: the columns it declares, the use it
allows, and warnings.
-/
namespace Tabular.Host

abbrev Schema := Sql.TableDefinition

structure Declaration where
  schema : Option Schema := none
  /-- The table may be used by statements of the application only, not from triggers or
  views. -/
  directOnly : Bool := false
  warnings : List String := []
  deriving DecidableEq, Repr, Inhabited

/-- The first name that an earlier one equals but for the case of ASCII letters. -/
def firstRepeat (seen : List String) : List String → Option String
  | [] => none
  | name :: rest =>
      let key := Text.lower name
      if seen.contains key then some name else firstRepeat (key :: seen) rest

/-- The schema that a definition gives, or what is wrong with it: there has to be at least one
column, and no column twice. -/
def checkSchema (definition : Sql.TableDefinition) : Except String Schema :=
  if definition.columns.isEmpty then .error "table has no columns"
  else
    match firstRepeat [] (definition.columns.map Sql.Column.name) with
    | some name => .error s!"duplicate column name: {name}"
    | none => .ok definition

def readSchema (sql : String) : Except Halt Schema :=
  let refuse {α : Type} (detail : String) : Except Halt α := .error (.failed (.schema sql detail))
  match Sql.statements? sql with
  | .error .abandoned => .error .abandoned
  | .error .mismatch | .error .tooDeep => refuse "sql parser error"
  | .ok [.createTable definition] =>
    match checkSchema definition with
    | .error detail => refuse detail
    | .ok schema => .ok schema
  | .ok [.other] => refuse "not a CREATE TABLE statement"
  | .ok statements => refuse s!"expected one CREATE TABLE statement, found {statements.length}"

namespace Declaration

/-- Declare the columns. A later declaration replaces an earlier one. -/
def declare (d : Declaration) (sql : String) : Except Halt Unit × Declaration :=
  match readSchema sql with
  | .error halt => (.error halt, d)
  | .ok schema => (.ok (), { d with schema := some schema })

def restrictToDirectUse (d : Declaration) : Declaration := { d with directOnly := true }

def warn (d : Declaration) (warning : String) : Declaration :=
  { d with warnings := d.warnings ++ [warning] }

end Declaration

end Tabular.Host
