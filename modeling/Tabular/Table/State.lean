import Tabular.Host.Cursor
import Tabular.Host.Plan
import Tabular.Table.Params
import Tabular.Table.Session

/-!
A connected table. Its parse session and caches are shared by all who use it: the row a cursor
is at is the head of the cache of data rows, so a cursor has no position of its own, and only
one can be open at a time.
-/
namespace Tabular.Table

structure State where
  name : String
  params : Params
  /-- The declared names, in the order of the header. -/
  columns : List String
  session : Session
  caches : Caches
  cursorOpen : Bool := false
  /-- The number of the file behind the table, if there is one. -/
  file : Option Nat := none
  deriving Repr, Inhabited

/-- What a cursor without a row gives for the number of its row. -/
def noRowid : Int := -1

def eqIndexCost : Nat := 10

/-- Move a session on by one row. When the source is exhausted, that may be a last row without
a line break. -/
def Session.pull (s : Session) (caches : Caches) : Except Error Unit × Session × Caches :=
  match s.advance caches with
  | (.error error, s, caches) => (.error error, s, caches)
  | (.ok .progressed, s, caches) => (.ok (), s, caches)
  | (.ok .exhausted, s, caches) => s.finish caches

namespace State

def pull (t : State) : Except Error Unit × State :=
  let (outcome, session, caches) := t.session.pull t.caches
  (outcome, { t with session, caches })

/-- Answer a plan. Every scan reads the whole table; a test flag makes an equality look cheap. -/
def bestIndex (t : State) (plan : Host.Plan) : Host.Plan :=
  let plan := { plan with cost := Host.fullScanCost }
  if t.params.hasTestFlag eqIndexFlag then
    match plan.firstUsableEq with
    | some i => { plan with cost := eqIndexCost, arguments := plan.arguments.set i 1 }
    | none => plan
  else plan

def openCursor (t : State) : Except Error Unit × State :=
  if t.cursorOpen then (.error (.cursorBusy t.name), t)
  else (.ok (), { t with cursorOpen := true })

def closeCursor (t : State) : State := { t with cursorOpen := false }

def disconnect (t : State) : State := { t with session := t.session.close, caches := {} }

/-- Begin a scan: go back to the start of the source and to the first row of data. -/
def filter (t : State) : Except Error Unit × State :=
  let t := { t with caches.data := {} }
  match t.session.rewind (!t.caches.header.isEmpty) with
  | (.error error, session) => (.error error, { t with session })
  | (.ok (), session) => pull { t with session }

def next (t : State) : Except Error Unit × State :=
  let t := { t with caches.data := t.caches.data.pop }
  if t.caches.data.isEmpty then t.pull else (.ok (), t)

def atEnd (t : State) : Bool := t.caches.data.isEmpty && t.session.isDone

/-- The value of a column of the current row. Where there is no row, or the row has no such
cell, it is NULL. -/
def column (t : State) (context : Host.ColumnContext) (index : Int) :
    Except Error Host.ColumnContext :=
  if index < 0 then .ok context.setNull
  else
    match t.caches.data.peek index.toNat t.session.resolve with
    | .error error => .error error
    | .ok (some cell) => .ok (context.setText cell.bytes)
    | .ok none => .ok context.setNull

def rowid (t : State) : Int := t.caches.data.headId?.getD noRowid

/-- Each row yet to come takes at least some of the work left to the parser. -/
def rowBound (t : State) : Nat :=
  t.caches.data.size + (t.session.parser.map Csv.Parser.work).getD 0

def sourceRewritten (t : State) (content : Bytes) : State :=
  { t with session := t.session.sourceRewritten content }

instance : Host.Cursor State where
  filter := filter
  next := next
  atEnd := atEnd
  column := column
  rowid := rowid
  rowBound := rowBound

end State

end Tabular.Table
