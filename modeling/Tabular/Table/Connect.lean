import Tabular.Host.Declaration
import Tabular.Stream.Disk
import Tabular.Table.Header
import Tabular.Table.State

/-!
Connecting a table: its parameters name the source, the header of the source names its columns,
and the columns are declared to the host.
-/
namespace Tabular.Table

/-- What a connect came to. What was told to the host and the count of blank names stand even
where the connect failed. -/
structure Connected where
  result : Except Halt State
  declaration : Host.Declaration
  blanks : BlankCounter

def blankWarning (position : Nat) : String :=
  s!"Error in column {position}: name may not be blank"

def declareColumns (header : List Cell) (declaration : Host.Declaration) (blanks : BlankCounter) :
    Except Halt (List String) × Host.Declaration × BlankCounter :=
  let (columns, blanks) := HeaderColumns.infer header blanks
  let declaration := columns.blank.foldl (fun d i => d.warn (blankWarning i)) declaration
  match declaration.declare columns.createTableSql with
  | (.error halt, declaration) => (.error halt, declaration, blanks)
  | (.ok (), declaration) => (.ok columns.names, declaration.restrictToDirectUse, blanks)

def readHeader (source : Source) (maxColumns : Nat) :
    Except Error (List Cell × Session × Caches) := do
  let session ← Session.new source { maxColumns }
  match session.pull {} with
  | (.error error, _, _) => .error error
  | (.ok (), session, caches) =>
    match caches.header.head?.bind CachedRow.ownedCells with
    | none => .error .noHeader
    | some header => .ok (header.toList, session, caches)

def connectTo (opened : Disk.Opened) (name : String) (params : Params)
    (declaration : Host.Declaration) (blanks : BlankCounter) : Connected :=
  match readHeader opened.source params.maxColumns with
  | .error error => { result := .error (.failed error), declaration, blanks }
  | .ok (header, session, caches) =>
    match declareColumns header declaration blanks with
    | (.error halt, declaration, blanks) => { result := .error halt, declaration, blanks }
    | (.ok columns, declaration, blanks) =>
      { result := .ok { name, params, columns, session, caches, file := opened.number }
        declaration, blanks }

def openSource (disk : Disk) : SourceSpec → Except Error Disk.Opened
  | .inline text => .ok { source := .ofBytes (Utf8.encode text) }
  | .file path =>
    match disk.open? (Utf8.encode path) with
    | some opened => .ok opened
    | none => .error (.cannotOpen path)

/-- Connect a table. The arguments are the names of the module, the schema and the table,
followed by the parameters. -/
def connect (disk : Disk) (arguments : List String) (declaration : Host.Declaration)
    (blanks : BlankCounter) : Connected :=
  match Params.parse (arguments.drop 3) with
  | .error halt => { result := .error halt, declaration, blanks }
  | .ok params =>
    match openSource disk params.source with
    | .error error => { result := .error (.failed error), declaration, blanks }
    | .ok opened => connectTo opened (arguments[2]?.getD "x") params declaration blanks

end Tabular.Table
