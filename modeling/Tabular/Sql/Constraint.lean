import Tabular.Sql.Query

/-!
What may be asked of a column and of a table as a whole. Nothing is kept of a constraint.
-/
namespace Tabular.Sql

namespace Reader

variable (nested : Nested)

/-! ## Parts of constraints -/

structure Characteristics where
  deferrable : Bool := false
  initially : Bool := false
  enforced : Bool := false
  deriving DecidableEq, Repr, Inhabited

def characteristic? (told : Characteristics) : Reader (Option Characteristics) := do
  if ← pure (!told.deferrable) <&&>
      (keywords? ["NOT", "DEFERRABLE"] <||> keyword? "DEFERRABLE") then
    return some { told with deferrable := true }
  else if ← pure (!told.initially) <&&> keyword? "INITIALLY" then
    let _ ← oneOf ["DEFERRED", "IMMEDIATE"]
    return some { told with initially := true }
  else if ← pure (!told.enforced) <&&>
      (keyword? "ENFORCED" <||> keywords? ["NOT", "ENFORCED"]) then
    return some { told with enforced := true }
  else return none

/-- When a constraint is enforced, as far as it is said. There are three things to say. -/
def characteristics : Reader Unit := do
  if let some told ← characteristic? {} then
    if let some told ← characteristic? told then
      let _ ← characteristic? told

def referentialAction : Reader Unit := do
  match ← oneOf ["RESTRICT", "CASCADE", "SET", "NO"] with
  | "SET" =>
    let _ ← oneOf ["NULL", "DEFAULT"]
  | "NO" => keyword "ACTION"
  | _ => pure ()

def eventAction? (event : String) : Reader Bool := do
  if ← keywords? ["ON", event] then
    referentialAction
    return true
  else return false

def referentialActions : Reader Unit := do
  if ← eventAction? "DELETE" then
    let _ ← eventAction? "UPDATE"
  else if ← eventAction? "UPDATE" then
    let _ ← eventAction? "DELETE"

def reference : Reader Unit := do
  skipName
  columnList?
  referentialActions
  characteristics

def indexKind? : Reader Bool := do
  if ← keyword? "USING" then
    skipIdentifier
    return true
  else return false

def indexColumn : Reader Unit := do
  expression nested
  if !(← atKeyword ["ASC", "DESC", "NULLS", "WITH"]) then
    let _ ← identifier?
  direction

def indexColumns : Reader Unit := parenthesized (skipList (indexColumn nested))

def indexOptions : Reader Unit := loop do
  if ← indexKind? then return true
  else if ← keyword? "COMMENT" then
    let _ ← literalString
    return true
  else return false

def nullsDistinct? : Reader Unit := whenever (keyword? "NULLS") do
  let _ ← keyword? "NOT"
  keyword "DISTINCT"

def keyColumns : Reader Unit := do
  let _ ← identifier?
  let _ ← indexKind?
  indexColumns nested
  indexOptions
  characteristics

def condition : Reader Unit := parenthesized (expression nested)

/-! ## Options of sequences -/

def sequenceOptions : Reader Unit := do
  whenever (keyword? "INCREMENT") do
    let _ ← keyword? "BY"
    skipNumber
  if ← keyword? "MINVALUE" then skipNumber
  else
    let _ ← keywords? ["NO", "MINVALUE"]
  if ← keyword? "MAXVALUE" then skipNumber
  else
    let _ ← keywords? ["NO", "MAXVALUE"]
  whenever (keyword? "START") do
    let _ ← keyword? "WITH"
    skipNumber
  whenever (keyword? "CACHE") skipNumber
  if !(← keywords? ["NO", "CYCLE"]) then
    let _ ← keyword? "CYCLE"

/-! ## Constraints of a table -/

def tableConstraint? : Reader Bool := do
  let named ← keyword? "CONSTRAINT"
  if named then skipIdentifier
  match ← oneOf? ["UNIQUE", "PRIMARY", "FOREIGN", "CHECK"] with
  | some "UNIQUE" =>
    if (← oneOf? ["KEY", "INDEX"]).isSome then mismatch
    nullsDistinct?
    keyColumns nested
    return true
  | some "PRIMARY" =>
    keyword "KEY"
    keyColumns nested
    return true
  | some "FOREIGN" =>
    keyword "KEY"
    let _ ← identifier?
    columnList
    keyword "REFERENCES"
    reference
    return true
  | some _ =>
    condition nested
    if !(← keyword? "ENFORCED") then
      let _ ← keywords? ["NOT", "ENFORCED"]
    return true
  | none => if named then mismatch else return false

/-! ## Constraints of a column -/

def storage? : Reader Unit := do
  let _ ← oneOf? ["STORED", "VIRTUAL"]

/-- What follows `GENERATED`. The words are taken even where no option follows them. -/
def generatedEnd? : Reader Bool := do
  if ← keywords? ["ALWAYS", "AS", "IDENTITY"] <||>
      keywords? ["BY", "DEFAULT", "AS", "IDENTITY"] then
    let _ ← parenthesized? sequenceOptions
    return true
  else if ← keywords? ["ALWAYS", "AS"] <&&> symbol? "(" then
    expression nested
    symbol ")"
    storage?
    return true
  else return false

def columnOptionEnd (opening : String) : Reader Unit := do
  match opening with
  | "COLLATE" => skipName
  | "COMMENT" =>
    match ← next with
    | .string _ => pure ()
    | _ => mismatch
  | "DEFAULT" => expression nested
  | "UNIQUE" => characteristics
  | "REFERENCES" => reference
  | "CHECK" => condition nested
  | _ => pure ()

/-- An option of a column, if there is one. Some words are passed over even where no option
follows them. -/
def columnOption? : Reader Bool := do
  if ← keywords? ["CHARACTER", "SET"] then
    skipName
    return true
  else if ← keywords? ["NOT", "NULL"] then return true
  else if ← keywords? ["PRIMARY", "KEY"] then
    characteristics
    return true
  else if let some opening ← oneOf?
      ["COLLATE", "COMMENT", "NULL", "DEFAULT", "UNIQUE", "REFERENCES", "CHECK"] then
    columnOptionEnd nested opening
    return true
  else
    let _ ← keyword? "AUTO_INCREMENT"
    if (← oneOf? ["AUTOINCREMENT", "ASC", "DESC"]).isSome then return true
    else
      let _ ← keywords? ["ON", "UPDATE"]
      if ← keyword? "GENERATED" then generatedEnd? nested
      else if ← keyword? "AS" then
        condition nested
        storage?
        return true
      else
        let _ ← keyword? "SRID"
        let _ ← keyword? "IDENTITY"
        if ← keywords? ["ON", "CONFLICT"] then
          let _ ← oneOf ["ROLLBACK", "ABORT", "FAIL", "IGNORE", "REPLACE"]
          return true
        else return false

def columnConstraint? : Reader Bool := do
  if ← keyword? "CONSTRAINT" then
    skipIdentifier
    require (columnOption? nested)
    return true
  else columnOption? nested

def columnConstraints : Reader Unit := loop (columnConstraint? nested)

end Reader

end Tabular.Sql
