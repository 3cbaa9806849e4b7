import Tabular.Host.Cursor
import Tabular.Host.Declaration
import Tabular.Host.Plan
import Tabular.Text.Utf8

/-!
A table of three words, which shows what a table owes its host and lets the host be tried
without a source. Its parameters say what it declares.
-/
namespace Tabular.Host.Words

def words : List String := ["alpha", "beta", "gamma"]

structure Request where
  sql : Option String := some "CREATE TABLE x(word TEXT)"
  declaration : Declaration

/-- Follow one parameter. Of several texts of a declaration, or calls for none, the last one
counts. -/
def Request.follow (r : Request) : String → Except Error Request
  | "direct" => .ok { r with declaration := r.declaration.restrictToDirectUse }
  | "nodeclare" => .ok { r with sql := none }
  | "fail" => .error (.internal "fixed fails")
  | sql => .ok { r with sql := some sql }

/-- Connect the table. Every argument is repeated in a warning. -/
def connect (arguments : List String) (declaration : Declaration) :
    Except Halt Unit × Declaration :=
  let declaration := declaration.warn ("args " ++ String.intercalate "|" arguments)
  match (arguments.drop 3).foldlM Request.follow { declaration } with
  | .error error => (.error (.failed error), declaration)
  | .ok { sql := none, declaration } => (.ok (), declaration)
  | .ok { sql := some sql, declaration } => declaration.declare sql

def bestIndex (plan : Plan) : Plan := { plan with cost := 3, number := 7, text := some "plan" }

structure Position where
  row : Nat := 0
  deriving DecidableEq, Repr, Inhabited

namespace Position

def word? (p : Position) : Option String := words[p.row]?

def column (p : Position) (context : ColumnContext) (index : Int) : ColumnContext :=
  match index, p.word? with
  | 0, some word => context.setText (Utf8.encode word)
  | _, _ => context

instance : Cursor Position where
  filter _ := (.ok (), {})
  next p := (.ok (), { row := p.row + 1 })
  atEnd p := p.word?.isNone
  column p context index := .ok (p.column context index)
  rowid p := if p.word?.isSome then p.row + 1 else -1
  rowBound p := words.length - p.row

end Position

end Tabular.Host.Words
