/-!
Everything that can go wrong between a connect and the last row of a scan, with the text
shown for it, the result code a database reports, and advice where there is some.
-/
namespace Tabular

/-- The causes of failure, grouped by what they concern: the parameters, the source, the
records, the declared schema, cursors, the host, and the overwrites of an echo. -/
inductive Error where
  | missingSource
  | conflictingSource
  | duplicateParameter (name : String)
  | badParameter (argument : String)
  | maxColumnsOutOfRange (value : String) (limit : Nat)
  | cannotOpen (path : String)
  | io (detail : String)
  | tooManyColumns (row limit : Nat)
  | rowTooLarge (row limit : Nat)
  | noHeader
  | parse (description : String)
  | schema (sql detail : String)
  | noSchemaDeclared
  | staleCell (cached current : Nat)
  | cursorBusy (table : String)
  | noSuchModule (name : String)
  | moduleExists (name : String)
  | unsafeUse (table : String)
  | overwriteSource (detail : String)
  | outOfMemory
  | internal (detail : String)
  deriving DecidableEq, Repr, Inhabited

inductive ResultCode where
  | ok
  | error
  | internal
  | locked
  | noMem
  | ioErr
  | cantOpen
  | schema
  | tooBig
  | misuse
  | range
  deriving DecidableEq, Repr

def ResultCode.number : ResultCode → Nat
  | .ok => 0
  | .error => 1
  | .internal => 2
  | .locked => 6
  | .noMem => 7
  | .ioErr => 10
  | .cantOpen => 14
  | .schema => 17
  | .tooBig => 18
  | .misuse => 21
  | .range => 25

namespace Error

def message : Error → String
  | .missingSource => "No csv filename provided"
  | .conflictingSource => "must specify either filename= or data= but not both"
  | .duplicateParameter name => s!"more than one '{name}' parameter"
  | .badParameter argument => s!"bad parameter: '{argument}'"
  | .maxColumnsOutOfRange _ limit => s!"max_columns= value must be between 1 and {limit}"
  | .cannotOpen path => s!"Unable to open for reading: {path}"
  | .io detail => s!"I/O error: {detail}"
  | .tooManyColumns row limit => s!"too many columns: row {row} has more than {limit}"
  | .rowTooLarge row limit => s!"row too large: row {row} exceeds {limit} bytes"
  | .noHeader =>
      "No rows of data parsed (first row is too large? Try using a larger max_row_size)"
  | .parse description => description
  | .schema sql detail => s!"bad schema: '{sql}' - {detail}"
  | .noSchemaDeclared => "vtab constructor did not declare a schema"
  | .staleCell cached current =>
      s!"stale cell: cached at parser step {cached}, parser is at step {current}"
  | .cursorBusy table => s!"table {table} already has an open cursor"
  | .noSuchModule name => s!"no such module: {name}"
  | .moduleExists name => s!"module {name} already exists"
  | .unsafeUse table => s!"unsafe use of virtual table \"{table}\""
  | .overwriteSource detail => s!"overwrite source: {detail}"
  | .outOfMemory => "out of memory"
  | .internal detail => s!"internal error: {detail}"

def code : Error → ResultCode
  | .missingSource | .conflictingSource | .duplicateParameter _ | .badParameter _ | .noHeader
  | .parse _ | .tooManyColumns .. | .noSuchModule _ | .moduleExists _ | .unsafeUse _
  | .overwriteSource _ => .error
  | .maxColumnsOutOfRange .. => .range
  | .cannotOpen _ => .cantOpen
  | .io _ => .ioErr
  | .rowTooLarge .. => .tooBig
  | .schema .. | .noSchemaDeclared => .schema
  | .staleCell .. => .misuse
  | .cursorBusy _ => .locked
  | .outOfMemory => .noMem
  | .internal _ => .internal

def exitStatus (error : Error) : Nat := error.code.number

def suggestion : Error → Option String
  | .missingSource => some "Pass filename=PATH or data=TEXT to the module"
  | .cannotOpen _ => some "Check the file path and its read permissions"
  | .tooManyColumns .. | .maxColumnsOutOfRange .. =>
      some "Raise max_columns= (at most 2000) or check the delimiter"
  | .rowTooLarge .. | .noHeader =>
      some "Check that the input is CSV and its first row is not oversized"
  | .cursorBusy _ => some "Finish or close the running scan first"
  | .unsafeUse _ => some "Query the table directly, not from a trigger or view"
  | .overwriteSource _ =>
      some "Use sqlite3://FILE?sql=SELECT row, column, value ... ORDER BY row, column"
  | _ => none

end Error

/-- How a request that could not be answered ended: with an error to report, or abandoned
because its text could not even be examined. -/
inductive Halt where
  | failed (error : Error)
  | abandoned
  deriving DecidableEq, Repr, Inhabited

end Tabular
