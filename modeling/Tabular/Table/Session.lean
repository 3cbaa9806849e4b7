import Tabular.Csv.Steps
import Tabular.Table.Cache

/-!
A parse session over a source that can be set back. Each advance takes one step of the parser
and puts the row it completes, if any, into one of two caches: the first record of a table is
its header, which is kept once, and the others are rows of data numbered from 1.
-/
namespace Tabular.Table

inductive Sink where
  /-- It is the header and is copied. -/
  | header
  /-- It is a header that is kept already. -/
  | skipHeader
  | data
  deriving DecidableEq, Repr, Inhabited

inductive SessionStatus where
  | ready
  | exhausted
  | failed (description : String)
  deriving DecidableEq, Repr, Inhabited

inductive Advance where
  | progressed
  | exhausted
  deriving DecidableEq, Repr

structure Caches where
  header : RowCache := {}
  data : RowCache := {}
  deriving DecidableEq, Repr, Inhabited

/-- What receives the rows of a session: the place of the next one, its number if it is data,
and the caches. -/
structure Intake where
  sink : Sink
  nextId : Int
  caches : Caches
  deriving DecidableEq, Repr, Inhabited

def Intake.receive : Csv.RowHandler Intake := fun row intake =>
  match intake.sink with
  | .header =>
    (.ok (), { intake with
      sink := .data, caches.header := intake.caches.header.append (.owned row 0) })
  | .skipHeader => (.ok (), { intake with sink := .data })
  | .data =>
    (.ok (), { intake with
      nextId := intake.nextId + 1
      caches.data := intake.caches.data.append (.borrowed row intake.nextId) })

structure Session where
  /-- The parse under way; there is none once the session was closed or a restart failed. -/
  parser : Option Csv.Parser
  options : Csv.Options
  sink : Sink := .header
  status : SessionStatus := .ready
  /-- The parse was asked for its last row. -/
  finished : Bool := false
  nextId : Int := 1
  deriving Repr, Inhabited

namespace Session

/-- A session of which the first row will be taken for the header. -/
def new (source : Source) (options : Csv.Options) : Except Error Session :=
  (Csv.Parser.new source options).map fun parser => { parser := some parser, options }

def isDone (s : Session) : Bool := s.status != .ready

def after (s : Session) (parser : Csv.Parser) (intake : Intake) (status : SessionStatus) : Session :=
  { s with parser := some parser, sink := intake.sink, nextId := intake.nextId, status }

def stepOnce (s : Session) (caches : Caches) :
    Except Error Advance × Session × Caches :=
  match s.parser with
  | none => (.error (.internal "no parser session"), s, caches)
  | some parser =>
    match parser.parseMore Intake.receive { sink := s.sink, nextId := s.nextId, caches } with
    | (.error error, parser, intake) =>
      (.error error, s.after parser intake (.failed error.message), intake.caches)
    | (.ok .noMoreInput, parser, intake) =>
      (.ok .exhausted, s.after parser intake .exhausted, intake.caches)
    | (.ok .row, parser, intake) =>
      (.ok .progressed, s.after parser intake s.status, intake.caches)

/-- Move on by one row at most. A header that is kept already does not count as a row. -/
def advance (s : Session) (caches : Caches) : Except Error Advance × Session × Caches :=
  match s.status with
  | .failed description => (.error (.parse description), s, caches)
  | .exhausted => (.ok .exhausted, s, caches)
  | .ready =>
    match s.sink with
    | .skipHeader =>
      match s.stepOnce caches with
      | (.ok .progressed, s, caches) => s.stepOnce caches
      | ended => ended
    | _ => s.stepOnce caches

/-- Take what was read so far for the whole source and receive the rows that completes. This
happens once in a session. -/
def finish (s : Session) (caches : Caches) : Except Error Unit × Session × Caches :=
  if s.finished then (.ok (), s, caches)
  else
    match s.parser with
    | none => (.ok (), { s with finished := true }, caches)
    | some parser =>
      match parser.finish Intake.receive { sink := s.sink, nextId := s.nextId, caches } with
      | (.error error, parser, intake) =>
        (.error error, { s.after parser intake (.failed error.message) with finished := true },
          intake.caches)
      | (.ok (), parser, intake) =>
        (.ok (), { s.after parser intake s.status with finished := true }, intake.caches)

/-- Set the source back and parse it from its start. Without a source there is no way back. -/
def restart (s : Session) : Except Error Csv.Parser :=
  match s.parser with
  | none => .error (.internal "no parser session")
  | some parser =>
    match parser.source.rewind with
    | (.error error, _) => .error error
    | (.ok (), source) => Csv.Parser.new source s.options

/-- Begin again from the start of the source. Rows borrowed before must have been dropped. -/
def rewind (s : Session) (headerCached : Bool) : Except Error Unit × Session :=
  let again := { s with finished := false, nextId := 1 }
  match s.restart with
  | .ok parser =>
    (.ok (), { again with
      parser := some parser
      sink := if headerCached then .skipHeader else .header
      status := .ready })
  | .error error =>
    (.error error, { again with parser := none, status := .failed error.message })

def close (s : Session) : Session := { s with parser := none, status := .exhausted }

def statusDescription (s : Session) : String :=
  match s.status, s.parser with
  | .failed description, _ => description
  | _, some parser => parser.statusDescription
  | _, none => "closed"

/-- The bytes of a span in the parser's buffer. Without a parser every span is stale. -/
def resolve (s : Session) : SpanSource := fun span generation =>
  match s.parser with
  | some parser => parser.resolve span generation
  | none => .error (.staleCell generation 0)

def sourceRewritten (s : Session) (content : Bytes) : Session :=
  { s with parser := s.parser.map fun p => { p with source := p.source.rewritten content } }

end Session

end Tabular.Table
