import Tabular.Sql.Name

/-!
Types of columns and the way they are shown. A type of a known name is shown in the spelling of
that name, any other one as it is written.
-/
namespace Tabular.Sql

inductive DataType.Kind where
  | known
  | interval
  /-- A type of no known name. -/
  | custom
  deriving DecidableEq, Repr

structure DataType where
  shown : String
  kind : DataType.Kind := .known
  deriving DecidableEq, Repr

namespace DataType

/-! ## Names of types -/

/-- Types that stand alone and are shown in capitals. -/
def plainNames : List String :=
  ["BOOLEAN", "BOOL", "REAL", "FLOAT4", "FLOAT64", "FLOAT8", "DATE", "UUID", "JSON", "JSONB",
    "TEXT", "TINYTEXT", "MEDIUMTEXT", "LONGTEXT", "BYTEA", "TINYBLOB", "MEDIUMBLOB", "LONGBLOB",
    "REGCLASS", "TIMESTAMP_NTZ", "TRIGGER", "INT64", "HUGEINT", "UHUGEINT", "UBIGINT",
    "USMALLINT", "UTINYINT"]

/-- Types that stand alone and have a spelling of their own, each behind its capitals. -/
def spelledNames : List (String × String) :=
  [("FLOAT32", "Float32"), ("DATE32", "Date32"), ("INT16", "Int16"), ("INT32", "Int32"),
    ("INT128", "Int128"), ("INT256", "Int256"), ("UINT8", "UInt8"), ("UINT16", "UInt16"),
    ("UINT32", "UInt32"), ("UINT64", "UInt64"), ("UINT128", "UInt128"), ("UINT256", "UInt256")]

def sizedNames : List String :=
  ["FLOAT", "CLOB", "BINARY", "BLOB", "BYTES", "VARBIT", "DATETIME", "STRING", "TIMESTAMPTZ",
    "TIMETZ"]

def integerNames : List String :=
  ["TINYINT", "INT2", "SMALLINT", "MEDIUMINT", "INT", "INT4", "INT8", "INTEGER", "BIGINT"]

def exactNames : List String := ["NUMERIC", "DECIMAL", "DEC", "BIGNUMERIC", "BIGDECIMAL"]

def characterNames : List String := ["VARCHAR", "NVARCHAR"]

end DataType

namespace Reader

open DataType

/-! ## Lengths -/

def shownSize (inside : Reader String) : Reader String := do
  match ← parenthesized? inside with
  | some size => return "(" ++ size ++ ")"
  | none => return ""

def length? : Reader String := shownSize (toString <$> unsigned)

def precision? : Reader String := shownSize do
  let precision ← unsigned
  if ← symbol? "," then return toString precision ++ "," ++ toString (← unsigned)
  else return toString precision

def characterLength? : Reader String := shownSize do
  if ← keyword? "MAX" then return "MAX"
  else
    let length ← unsigned
    match ← oneOf? ["CHARACTERS", "OCTETS"] with
    | some unit => return toString length ++ " " ++ unit
    | none => return toString length

def binaryLength? : Reader String := shownSize do
  if ← keyword? "MAX" then return "MAX" else return toString (← unsigned)

def timeZone? : Reader String := do
  match ← oneOf? ["WITH", "WITHOUT"] with
  | some word =>
    keywords ["TIME", "ZONE"]
    return " " ++ word ++ " TIME ZONE"
  | none => return ""

/-! ## Lists in types -/

def enumerator : Reader String := do
  let name := inQuotes '\'' (← literalString)
  if ← symbol? "=" then return name ++ " = " ++ (← signedNumber) else return name

def quotedString : Reader String
  | .string text :: rest => .ok (inQuotes '\'' text) rest
  | tokens => .error .mismatch tokens.tail

def shownList (item : Reader String) : Reader String := do
  return "(" ++ String.intercalate ", " (← parenthesized (list item)) ++ ")"

def modifier : Reader String
  | .word text _ :: rest | .number text _ :: rest | .string text :: rest => .ok text rest
  | .quoted mark text :: rest =>
      .ok (String.singleton mark ++ text ++ String.singleton (Token.closing mark)) rest
  | tokens => .error .mismatch tokens.tail

/-- The words in the parentheses behind a type of no known name. Commas between them are of no
account. -/
def modifiers : Reader (List String) := do
  let found ← collect do
    if ← symbol? "," then return some none
    else if ← atSymbol ")" then return none
    else return some (some (← modifier))
  symbol ")"
  return found.filterMap id

def customType : Reader DataType := do
  let name := shownName (← objectName)
  if ← symbol? "(" then
    match ← modifiers with
    | [] => return { shown := name, kind := .custom }
    | words =>
      return { shown := name ++ "(" ++ String.intercalate ", " words ++ ")", kind := .custom }
  else return { shown := name, kind := .custom }

/-! ## Types -/

def characterType (name : String) : Reader String := do
  if ← keyword? "VARYING" then return name ++ " VARYING" ++ (← characterLength?)
  else if ← keywords? ["LARGE", "OBJECT"] then return name ++ " LARGE OBJECT" ++ (← length?)
  else return name ++ (← characterLength?)

def zonedMoment : Reader String := parenthesized do
  let precision ← unsigned
  if ← symbol? "," then
    return "(" ++ toString precision ++ ", '" ++ (← literalString) ++ "')"
  else return "(" ++ toString precision ++ ")"

def simpleType? (name : String) : Option (Reader String) :=
  if plainNames.contains name then some (return name)
  else if let some spelled := spelledNames.lookup name then some (return spelled)
  else if integerNames.contains name then some do
    let length ← length?
    if ← keyword? "UNSIGNED" then return name ++ length ++ " UNSIGNED" else return name ++ length
  else if sizedNames.contains name then some do return name ++ (← length?)
  else if exactNames.contains name then some do return name ++ (← precision?)
  else if characterNames.contains name then some do return name ++ (← characterLength?)
  else
    match name with
    | "DOUBLE" => some do
      if ← keyword? "PRECISION" then return "DOUBLE PRECISION"
      else return "DOUBLE" ++ (← precision?)
    | "CHAR" | "CHARACTER" => some (characterType name)
    | "VARBINARY" => some do return name ++ (← binaryLength?)
    | "BIT" => some do
      if ← keyword? "VARYING" then return "BIT VARYING" ++ (← length?)
      else return "BIT" ++ (← length?)
    | "TIME" | "TIMESTAMP" => some do
      let length ← length?
      return name ++ length ++ (← timeZone?)
    | "DATETIME64" => some do return "DateTime64" ++ (← zonedMoment)
    | "FIXEDSTRING" => some do
      return "FixedString(" ++ toString (← parenthesized unsigned) ++ ")"
    | "ENUM" | "ENUM8" | "ENUM16" => some do return name ++ (← shownList enumerator)
    | "SET" => some do return name ++ (← shownList quotedString)
    | "SIGNED" | "UNSIGNED" => some do
      if ← keyword? "INTEGER" then return name ++ " INTEGER" else return name
    | _ => none

/-- The bracket that closes a type, given whether the one before it has closed this type too. -/
def closingBracket (closed : Bool) : Reader Bool := do
  if closed then return false
  else if ← symbol? ">" then return false
  else
    symbol ">>"
    return true

/-- A type, and whether a bracket behind it has closed one more type than was open. Types are
nested no deeper than there are tokens in the budget. -/
def dataTypeWithin : List Token → Reader (DataType × Bool)
  | [] => mismatch
  | _ :: budget => do
      match ← peek with
      | some (.word _ name) =>
        match simpleType? name with
        | some described =>
          let _ ← next
          return ({ shown := ← described }, false)
        | none =>
          if ← keyword? "INTERVAL" then return ({ shown := "INTERVAL", kind := .interval }, false)
          else if ← keyword? "ARRAY" then
            symbol "<"
            let (inside, closed) ← dataTypeWithin budget
            let closed ← closingBracket closed
            return ({ shown := "ARRAY<" ++ inside.shown ++ ">" }, closed)
          else if ← keyword? "TABLE" then
            let columns ← parenthesized? <| list do
              let name ← identifier
              let (type, closed) ← dataTypeWithin budget
              if closed then mismatch else return name.shown ++ " " ++ type.shown
            match columns with
            | some columns =>
              return ({ shown := "TABLE(" ++ String.intercalate ", " columns ++ ")" }, false)
            | none => return ({ shown := "TABLE" }, false)
          else if ← keywords? ["ANY", "TYPE"] then return ({ shown := "ANY TYPE" }, false)
          else return (← customType, false)
      | some (.quoted ..) => return (← customType, false)
      | _ => mismatch

def dataType : Reader DataType := fun tokens => (do
  let (type, closed) ← dataTypeWithin tokens
  if closed then mismatch else return type : Reader DataType) tokens

def skipType : Reader Unit := do
  let _ ← dataType

end Reader

end Tabular.Sql
