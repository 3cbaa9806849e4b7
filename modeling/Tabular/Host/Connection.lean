import Tabular.Host.Words
import Tabular.Table.Connect

/-!
The host of tables: modules are registered by name, tables are made from them, and their
cursors are opened and read. What several users of a table share is kept here under the number
of the table, for as long as anyone may still use it.
-/
namespace Tabular.Host

inductive Module where
  | csv
  | words
  deriving DecidableEq, Repr

inductive Origin where
  | direct
  | trigger
  | view
  deriving DecidableEq, Repr

/-- A table that was connected. Tables of words have nothing to share. -/
inductive TableRef where
  | csv (number : Nat)
  | words
  deriving DecidableEq, Repr

inductive CursorRef where
  | csv (table : Nat)
  | words (number : Nat)
  deriving DecidableEq, Repr

structure TableHandle where
  name : String
  schema : Schema
  directOnly : Bool
  warnings : List String
  table : TableRef
  deriving Repr

structure Connection where
  /-- The modules by the name they are known by. -/
  modules : List (String × Module) := []
  disk : Disk := {}
  blanks : Table.BlankCounter := 0
  tables : Array Table.State := #[]
  wordCursors : Array Words.Position := #[]
  deriving Inhabited

namespace Connection

/-- Modules are known by their name without blanks around it and in any case. -/
def knownName (name : String) : String :=
  Text.upper (String.ofList (Text.trim name.toList))

def module? (c : Connection) (name : String) : Option Module := c.modules.lookup (knownName name)

def register (c : Connection) (name : String) (m : Module) : Except Error Unit × Connection :=
  if (c.module? name).isSome then (.error (.moduleExists name), c)
  else (.ok (), { c with modules := (knownName name, m) :: c.modules })

/-! ## Tables -/

def table? (c : Connection) : TableRef → Option Table.State
  | .csv number => c.tables[number]?
  | .words => none

structure Joined where
  result : Except Halt TableRef
  declaration : Declaration
  connection : Connection

def connectCsv (c : Connection) (arguments : List String) : Joined :=
  let connected := Table.connect c.disk arguments {} c.blanks
  let c := { c with blanks := connected.blanks }
  match connected.result with
  | .error halt => { result := .error halt, declaration := connected.declaration, connection := c }
  | .ok table =>
    { result := .ok (.csv c.tables.size)
      declaration := connected.declaration
      connection := { c with tables := c.tables.push table } }

def connectWords (c : Connection) (arguments : List String) : Joined :=
  match Words.connect arguments {} with
  | (.error halt, declaration) => { result := .error halt, declaration, connection := c }
  | (.ok (), declaration) => { result := .ok .words, declaration, connection := c }

def connectModule (c : Connection) (m : Module) (arguments : List String) : Joined :=
  match m with
  | .csv => c.connectCsv arguments
  | .words => c.connectWords arguments

def modifyTable (c : Connection) (number : Nat) (f : Table.State → Table.State) : Connection :=
  { c with tables := c.tables.modify number f }

def disconnect (c : Connection) : TableRef → Connection
  | .csv number => c.modifyTable number Table.State.disconnect
  | .words => c

/-- Make a table, or connect to one that was made before, which is the same for every module
here. A table that declares no columns is disconnected again. -/
def construct (c : Connection) (moduleName schema table : String) (params : List String) :
    Except Halt TableHandle × Connection :=
  match c.module? moduleName with
  | none => (.error (.failed (.noSuchModule moduleName)), c)
  | some m =>
    let joined := c.connectModule m (moduleName :: schema :: table :: params)
    match joined.result with
    | .error halt => (.error halt, joined.connection)
    | .ok ref =>
      match joined.declaration.schema with
      | none => (.error (.failed .noSchemaDeclared), joined.connection.disconnect ref)
      | some declared =>
        (.ok {
          name := table
          schema := declared
          directOnly := joined.declaration.directOnly
          warnings := joined.declaration.warnings
          table := ref }, joined.connection)

def bestIndex (c : Connection) (plan : Plan) : TableRef → Plan
  | .csv number => ((c.table? (.csv number)).map (·.bestIndex plan)).getD plan
  | .words => Words.bestIndex plan

/-! ## Cursors -/

def openCursor (c : Connection) : TableRef → Except Error CursorRef × Connection
  | .words =>
    (.ok (.words c.wordCursors.size), { c with wordCursors := c.wordCursors.push {} })
  | .csv number =>
    match c.tables[number]? with
    | none => (.error (.internal "no such table"), c)
    | some t =>
      let (outcome, t) := t.openCursor
      (outcome.map fun () => .csv number, c.modifyTable number fun _ => t)

def closeCursor (c : Connection) : CursorRef → Connection
  | .csv number => c.modifyTable number Table.State.closeCursor
  | .words _ => c

/-- Open a cursor for a statement of the given origin. Tables that allow direct use only are
refused to triggers and views. -/
def openScan (c : Connection) (t : TableHandle) (origin : Origin) :
    Except Error CursorRef × Connection :=
  if t.directOnly && origin != .direct then (.error (.unsafeUse t.name), c)
  else c.openCursor t.table

def hasOpenCursor (c : Connection) (ref : TableRef) : Bool :=
  ((c.table? ref).map Table.State.cursorOpen).getD false

structure CursorAction (α : Type) where
  run : {σ : Type} → [Cursor σ] → σ → α × σ

def act {α : Type} (c : Connection) (cursor : CursorRef) (action : CursorAction (Except Error α)) :
    Except Error α × Connection :=
  match cursor with
  | .csv number =>
    match c.tables[number]? with
    | none => (.error (.internal "no such table"), c)
    | some t =>
      let (answer, t) := action.run t
      (answer, c.modifyTable number fun _ => t)
  | .words number =>
    match c.wordCursors[number]? with
    | none => (.error (.internal "no such cursor"), c)
    | some p =>
      let (answer, p) := action.run p
      (answer, { c with wordCursors := c.wordCursors.setIfInBounds number p })

def filter (c : Connection) (cursor : CursorRef) : Except Error Unit × Connection :=
  c.act cursor { run := Cursor.filter }

def next (c : Connection) (cursor : CursorRef) : Except Error Unit × Connection :=
  c.act cursor { run := Cursor.next }

structure View where
  atEnd : Bool
  rowid : Int
  values : List (Except Error (Option Value))

def view (c : Connection) (cursor : CursorRef) (columns : List Int) : Except Error View :=
  (c.act cursor { run := fun s =>
    (.ok {
      atEnd := Cursor.atEnd s
      rowid := Cursor.rowid s
      values := columns.map fun i => (Cursor.column s {} i).map ColumnContext.value }, s) }).1

/-- Read a whole table through a cursor that is opened for it and closed again, whatever comes
of the reading. -/
def scanAll (c : Connection) (t : TableHandle) (origin : Origin) :
    Except Error (List ScannedRow) × Connection :=
  match c.openScan t origin with
  | (.error error, c) => (.error error, c)
  | (.ok cursor, c) =>
    let (rows, c) := c.act cursor { run := allRows t.schema.columns.length }
    (rows, c.closeCursor cursor)

/-! ## Files -/

/-- Write a file. Tables that have it open see the new bytes from where they stand. -/
def writeFile (c : Connection) (path content : Bytes) : Connection :=
  let (number, disk) := c.disk.write path content
  { c with
    disk
    tables := c.tables.map fun t =>
      if t.file = some number then t.sourceRewritten content else t }

def removeFile (c : Connection) (path : Bytes) : Connection :=
  { c with disk := c.disk.remove path }

end Connection

end Tabular.Host
