import Tabular.Cli.Request
import Tabular.Echo
import Tabular.Patch.Database
import Tabular.Patch.Locator
import Tabular.Stream.Disk

/-!
A run of the command: what it reads is found in its surroundings, and what it leaves is an exit
code and two outputs.
-/
namespace Tabular.Cli

structure Surroundings where
  standardInput : Source
  /-- Open a path for reading. -/
  open? : Bytes → Option Source
  /-- What is at a path where a database is looked for. -/
  target : Bytes → Patch.Target

/-- The surroundings made by a disk of which some files, given by their numbers, hold
databases. -/
def Surroundings.ofDisk (standardInput : Source) (disk : Disk)
    (databases : List (Nat × Patch.Database)) : Surroundings where
  standardInput
  open? path := (disk.open? path).map Disk.Opened.source
  target path :=
    match disk.findReduced? path with
    | none => .nothing
    | some .directory => .directory
    | some (.file number) =>
      .store (match databases.lookup number with
        | some rows => .database rows
        | none => if disk.contents[number]?.getD [] = [] then .blank else .foreign)

structure Outcome where
  code : Nat
  out : Bytes
  err : Bytes
  deriving DecidableEq, Repr

def usageCode : Nat := 2

def usage : String :=
  "csvtab-echo: write tabular input to stdout with optional cell overwrites\n" ++
  "\n" ++
  "Usage: csvtab-echo [FILENAME|-] [-b] [--overwrite SOURCE]\n" ++
  "\n" ++
  "Options:\n" ++
  "  -b                   write a UTF-8 byte order mark first\n" ++
  "  --overwrite SOURCE   overwrite cells using SOURCE, which may be:\n" ++
  "                       sqlite3://FILENAME?sql=QUERY\n" ++
  "\n" ++
  "Example:\n" ++
  "\n" ++
  "csvtab-echo data.csv --overwrite \\\n" ++
  "  'sqlite3://patches.db?sql=select row, col, value from patches order by row, col'\n" ++
  "\n"

def report (error : Error) : String :=
  match error.suggestion with
  | some hint => s!"error: {error.message}\nhint: {hint}\n"
  | none => s!"error: {error.message}\n"

namespace Surroundings

def overwrites (s : Surroundings) (source : String) : Except Error (List Patch.Overwrite) := do
  let locator ← Patch.Locator.parse source
  Patch.readDatabase s.target locator.path locator.sql

def input (s : Surroundings) : Option Bytes → Except Error Source
  | none => .ok s.standardInput
  | some path =>
    match s.open? path with
    | some source => .ok source
    | none => .error (.cannotOpen (Utf8.decodeLossy path))

end Surroundings

/-- The overwrites and the input of a request. The overwrites are read first. -/
def gather (s : Surroundings) (r : Request) : Except Error (List Patch.Overwrite × Source) := do
  let overwrites ← (r.overwrites.map s.overwrites).getD (.ok [])
  let source ← s.input r.input
  .ok (overwrites, source)

/-- Do what was asked for. What was written before an error stays written. -/
def perform (s : Surroundings) (r : Request) : Except Error Echo.Stats × Bytes :=
  match gather s r with
  | .error error => (.error error, [])
  | .ok (overwrites, source) =>
    let done := echo source {} (.ofList overwrites) r.withMark {}
    (done.result, done.out.bytes)

def run (s : Surroundings) (arguments : List Bytes) : Outcome :=
  match Request.parse arguments with
  | .error error =>
    { code := usageCode, out := [], err := Utf8.encode (s!"error: {error.message}\n" ++ usage) }
  | .ok request =>
    if request.help then { code := 0, out := Utf8.encode usage, err := [] }
    else
      match perform s request with
      | (.ok _, out) => { code := 0, out, err := [] }
      | (.error error, out) =>
        { code := error.exitStatus, out, err := Utf8.encode (report error) }

end Tabular.Cli
