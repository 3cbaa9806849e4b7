import Tabular.Error
import Tabular.Text

/-!
The text that says where overwrites come from: a database file and a query, written
`sqlite3://FILE?sql=QUERY`.
-/
namespace Tabular.Patch

structure Locator where
  path : String
  sql : String
  deriving DecidableEq, Repr, Inhabited

namespace Locator

def scheme : List Char := "sqlite3://".toList

def queryKey : List Char := "sql=".toList

def after? (key : List Char) (text : List Char) : Option (List Char) :=
  if key.isPrefixOf text then some (text.drop key.length)
  else
    match text with
    | [] => none
    | _ :: rest => after? key rest

def invalidSource (source : String) : Error :=
  .overwriteSource s!"Invalid overwrite source: {source}"

def missingQuery : Error :=
  .overwriteSource ("Missing sql select statement for sqlite3 echo data e.g.: " ++
    "select row, column, value from overwrites order by row, column")

def query? (text : List Char) : Option String :=
  (after? queryKey text).bind fun sql =>
    if sql.all Text.isBlank then none else some (String.ofList sql)

/-- Read a source. The file ends at the first question mark. -/
def parse (source : String) : Except Error Locator :=
  if !scheme.isPrefixOf source.toList then .error (invalidSource source)
  else
    let rest := source.toList.drop scheme.length
    let path := rest.takeWhile (· != '?')
    if path.isEmpty then .error (.overwriteSource "Invalid query string")
    else
      match query? ((rest.dropWhile (· != '?')).drop 1) with
      | some sql => .ok { path := String.ofList path, sql }
      | none => .error missingQuery

end Locator

end Tabular.Patch
