import Tabular.Sql.DataType

/-!
Expressions: operands, the operators between them, and calls of functions. Nothing is kept of an
expression but whether it is a name alone or a star, since that decides how a selection may go on.
The readers here are given the ones for what is nested in them, which know how deep they are.
-/
namespace Tabular.Sql

/-- What an expression is, as far as it matters. -/
inductive Term where
  /-- A name alone that is not in quotes. -/
  | name (text : String)
  /-- All columns of a table. -/
  | star
  | other
  deriving DecidableEq, Repr

/-- Readers for what is nested one level deeper. -/
structure Nested where
  /-- An expression whose operators all bind tighter than the given power. -/
  expression : Nat → Reader Term
  query : Reader Unit

/-! ## How tight operators bind -/

namespace Power

def any : Nat := 0
def disjunction : Nat := 5
def conjunction : Nat := 10
def negation : Nat := 15
def arrow : Nat := 16
def truth : Nat := 17
def pattern : Nat := 19
def comparison : Nat := 20
def bar : Nat := 21
def caret : Nat := 22
def ampersand : Nat := 23
def exclusion : Nat := 24
def sum : Nat := 30
def product : Nat := 40
def zone : Nat := 41
def cast : Nat := 50
def point : Nat := 100

end Power

namespace Reader

variable (nested : Nested)

def expression : Reader Unit := do
  let _ ← nested.expression Power.any

def tighter (power : Nat) : Reader Unit := do
  let _ ← nested.expression power

/-! ## Order -/

def direction : Reader Unit := do
  let _ ← oneOf? ["ASC", "DESC"]
  if !(← keywords? ["NULLS", "FIRST"]) then
    let _ ← keywords? ["NULLS", "LAST"]

def sortKey : Reader Unit := do
  expression nested
  direction

def sortKeys : Reader Unit := skipList (sortKey nested)

/-! ## Units of time -/

def momentParts : List String :=
  ["YEAR", "YEARS", "MONTH", "MONTHS", "WEEK", "WEEKS", "DAY", "DAYOFWEEK", "DAYOFYEAR", "DAYS",
    "DATE", "DATETIME", "HOUR", "HOURS", "MINUTE", "MINUTES", "SECOND", "SECONDS", "CENTURY",
    "DECADE", "DOY", "DOW", "EPOCH", "ISODOW", "ISOYEAR", "ISOWEEK", "JULIAN", "MICROSECOND",
    "MICROSECONDS", "MILLENIUM", "MILLENNIUM", "MILLISECOND", "MILLISECONDS", "NANOSECOND",
    "NANOSECONDS", "QUARTER", "TIME", "TIMEZONE", "TIMEZONE_ABBR", "TIMEZONE_HOUR",
    "TIMEZONE_MINUTE", "TIMEZONE_REGION"]

def intervalUnits : List String :=
  ["YEAR", "YEARS", "MONTH", "MONTHS", "WEEK", "WEEKS", "DAY", "DAYS", "HOUR", "HOURS", "MINUTE",
    "MINUTES", "SECOND", "SECONDS", "CENTURY", "DECADE", "DOW", "DOY", "EPOCH", "ISODOW",
    "ISOYEAR", "JULIAN", "MICROSECOND", "MICROSECONDS", "MILLENIUM", "MILLENNIUM", "MILLISECOND",
    "MILLISECONDS", "NANOSECOND", "NANOSECONDS", "QUARTER", "TIMEZONE", "TIMEZONE_HOUR",
    "TIMEZONE_MINUTE"]

def momentPart : Reader String := oneOf momentParts

def interval (length : Reader Unit) : Reader Unit := do
  length
  let unit? ← oneOf? intervalUnits
  if unit? = some "SECOND" then
    let _ ← precision?
  else
    let _ ← length?
    if ← keyword? "TO" then
      if (← momentPart) = "SECOND" then
        let _ ← length?

/-! ## Calls -/

/-- What follows a star that is reached by points, if there is one. Other points have to be
followed by names. -/
def afterStar? : List Token → Except Fault (Option (List Token))
  | .symbol "." :: .symbol "*" :: rest => .ok (some rest)
  | .symbol "." :: .word .. :: rest | .symbol "." :: .quoted .. :: rest
  | .symbol "." :: .string _ :: rest => afterStar? rest
  | .symbol "." :: _ => .error .mismatch
  | _ => .ok none

def starOrExpression : Reader Term := fun tokens =>
  match tokens with
  | .symbol "*" :: rest => .ok .star rest
  | .word .. :: rest | .quoted .. :: rest | .string _ :: rest =>
    match afterStar? rest with
    | .ok (some rest) => .ok .star rest
    | .ok none => nested.expression Power.any tokens
    | .error fault => .error fault tokens
  | _ => nested.expression Power.any tokens

def skipStarOrExpression : Reader Unit := do
  let _ ← starOrExpression nested

def argument : Reader Unit := do
  let named? ← attempt do
    skipIdentifier
    if !(← keyword? "VALUE") then symbol "=>"
    skipStarOrExpression nested
  if named?.isNone then skipStarOrExpression nested

def jsonNulls? : Reader Bool := do
  if ← keywords? ["ABSENT", "ON", "NULL"] then return true
  else keywords? ["NULL", "ON", "NULL"]

def overflowRule : Reader Unit := do
  if !(← keyword? "ERROR") then
    keyword "TRUNCATE"
    match ← peek with
    | some (.string _) | some (.nationalString _) | some (.hexString _) => expression nested
    | _ => require (atKeyword ["WITH", "WITHOUT"])
    let _ ← oneOf ["WITH", "WITHOUT"]
    keyword "COUNT"

def arguments : Reader Unit := do
  let _ ← jsonNulls?
  if !(← symbol? ")") then
    let all ← keyword? "ALL"
    let distinct ← keyword? "DISTINCT"
    if all && distinct then mismatch
    skipList (argument nested)
    whenever (keywords? ["ORDER", "BY"]) (sortKeys nested)
    whenever (keyword? "LIMIT") (expression nested)
    whenever (keywords? ["ON", "OVERFLOW"]) (overflowRule nested)
    let _ ← jsonNulls?
    symbol ")"

def frameBound (interval : Reader Unit) : Reader Unit := do
  if !(← keywords? ["CURRENT", "ROW"]) then
    if !(← keyword? "UNBOUNDED") then
      match ← peek with
      | some (.string _) => interval
      | _ => expression nested
    let _ ← oneOf ["PRECEDING", "FOLLOWING"]

def window (interval : Reader Unit) : Reader Unit := do
  match ← peek with
  | some (.word _ capitals) => if !isKeyword capitals then skipIdentifier
  | some (.quoted ..) => skipIdentifier
  | _ => pure ()
  whenever (keywords? ["PARTITION", "BY"]) (skipList (expression nested))
  whenever (keywords? ["ORDER", "BY"]) (sortKeys nested)
  if !(← symbol? ")") then
    let _ ← oneOf ["ROWS", "RANGE", "GROUPS"]
    if ← keyword? "BETWEEN" then
      frameBound nested interval
      keyword "AND"
      frameBound nested interval
    else frameBound nested interval
    symbol ")"

def call (interval : Reader Unit) : Reader Unit := do
  symbol "("
  arguments nested
  whenever (keywords? ["WITHIN", "GROUP"]) <| parenthesized do
    keywords ["ORDER", "BY"]
    sortKeys nested
  if ← keyword? "FILTER" then
    if ← symbol? "(" then
      if ← keyword? "WHERE" then
        expression nested
        symbol ")"
  if (← oneOf? ["RESPECT", "IGNORE"]).isSome then keyword "NULLS"
  if ← keyword? "OVER" then
    if ← symbol? "(" then window nested interval else skipIdentifier

/-! ## Operands that a word introduces -/

def caseBranches : Reader Unit := do
  if !(← keyword? "WHEN") then
    expression nested
    keyword "WHEN"
  let branch : Reader Unit := do
    expression nested
    keyword "THEN"
    expression nested
  branch
  loop do
    if ← keyword? "WHEN" then
      branch
      return true
    else return false
  whenever (keyword? "ELSE") (expression nested)
  keyword "END"

def castFormat? : Reader Unit := whenever (keyword? "FORMAT") do
  skipValue
  whenever (keywords? ["AT", "TIME", "ZONE"]) skipValue

def conversion : Reader Unit := parenthesized do
  expression nested
  if ← keyword? "USING" then skipName
  else
    symbol ","
    skipType
    whenever (keywords? ["CHARACTER", "SET"]) skipName

def castOperand : Reader Unit := parenthesized do
  expression nested
  keyword "AS"
  skipType
  castFormat?

def rounding : Reader Unit := parenthesized do
  expression nested
  if ← keyword? "TO" then
    let _ ← momentPart
  else if ← symbol? "," then
    match ← value with
    | .number _ => pure ()
    | _ => mismatch

def substring : Reader Unit := parenthesized do
  expression nested
  if ← symbol? "," then expression nested
  else whenever (keyword? "FROM") (expression nested)
  if ← keyword? "FOR" then expression nested
  else whenever (symbol? ",") (expression nested)

def overlay : Reader Unit := parenthesized do
  expression nested
  keyword "PLACING"
  expression nested
  keyword "FROM"
  expression nested
  whenever (keyword? "FOR") (expression nested)

/-- What follows `TRIM`. A comma is not what may follow the text. -/
def trimming : Reader Unit := parenthesized do
  let _ ← oneOf? ["BOTH", "LEADING", "TRAILING"]
  expression nested
  whenever (keyword? "FROM") (expression nested)

/-- What follows `POSITION`, which may also be called like any function. -/
def position (interval : Reader Unit) : Reader Unit := do
  let special? ← attempt <| parenthesized do
    tighter nested Power.comparison
    keyword "IN"
    expression nested
  if special?.isNone then call nested interval

def now : Reader Unit := whenever (symbol? "(") (arguments nested)

/-- Read what follows a word that introduces an operand, and tell whether it is such a word. -/
def wordForm (interval : Reader Unit) (word : String) : Reader Bool :=
  let form (reader : Reader Unit) : Reader Bool := do
    reader
    return true
  match word with
  | "TRUE" | "FALSE" | "NULL" => return true
  | "CURRENT_TIMESTAMP" | "CURRENT_TIME" | "CURRENT_DATE" | "LOCALTIME" | "LOCALTIMESTAMP" =>
    form (now nested)
  | "CASE" => form (caseBranches nested)
  | "CONVERT" => form (conversion nested)
  | "CAST" | "TRY_CAST" | "SAFE_CAST" => form (castOperand nested)
  | "EXISTS" => form (parenthesized nested.query)
  | "EXTRACT" => form <| parenthesized do
      let _ ← momentPart
      keyword "FROM"
      expression nested
  | "CEIL" | "FLOOR" => form (rounding nested)
  | "POSITION" => do
      if ← atSymbol "(" then form (position nested interval) else return false
  | "SUBSTR" | "SUBSTRING" => form (substring nested)
  | "OVERLAY" => form (overlay nested)
  | "TRIM" => form (trimming nested)
  | "INTERVAL" => form interval
  | "ARRAY" => do
      if ← atSymbol "(" then form (parenthesized nested.query) else return false
  | "NOT" => form do
      if ← keyword? "EXISTS" then parenthesized nested.query
      else tighter nested Power.negation
  | _ => return false

/-- Words that are no names where they fail to introduce an operand. -/
def unsharedWords : List String := ["EXISTS", "INTERVAL", "STRUCT", "TRIM"]

def namedOperand (interval : Reader Unit) (text : String) (bare : Bool) : Reader Term := do
  let introduces := text.toList.head? = some '_'
  match ← peek with
  | some (.symbol "(") =>
    call nested interval
    return .other
  | some (.string _) | some (.hexString _) =>
    if introduces then
      let _ ← next
      return .other
    else return if bare then .name text else .other
  | _ => return if bare then .name text else .other

/-- The operand that a word introduces, given in capitals too, or else the one it names. Told as
well is whether a collation may follow: not behind a name that fails to introduce an operand. -/
def wordOperand (interval : Reader Unit) (text capitals : String) : Reader (Term × Bool) :=
  fun tokens =>
    match wordForm nested interval capitals tokens with
    | .ok true rest => .ok (.other, true) rest
    | .ok false _ => (do return (← namedOperand nested interval text true, true)
        : Reader (Term × Bool)) tokens
    | .error .abandoned rest => .error .abandoned rest
    | .error fault rest =>
      if unsharedWords.contains capitals then .error fault rest
      else
        match namedOperand nested interval text true tokens with
        | .ok term rest => .ok (term, false) rest
        | .error .abandoned rest => .error .abandoned rest
        | .error _ rest => .error fault rest

/-! ## Other operands -/

def typedLiteral (interval : Reader Unit) : Reader Unit := do
  match (← dataType).kind with
  | .interval => interval
  | .custom => mismatch
  | .known => skipValue

def braced (interval : Reader Unit) : Reader Unit := do
  let function? ← attempt do
    keyword "FN"
    skipName
    call nested interval
  if function?.isNone then
    match ← next with
    | .word text _ => if text = "t" || text = "d" || text = "ts" then skipValue else mismatch
    | _ => mismatch
  symbol "\x7d"

def grouped : Reader Unit := do
  if ← atKeyword ["SELECT", "WITH"] then nested.query else skipList (expression nested)
  symbol ")"

/-- An operand, given the one that an interval may begin with. Told as well is whether a
collation may follow. -/
def bareOperand (interval : Reader Unit) : Reader (Term × Bool) := do
  match ← peek with
  | some (.number ..) | some (.string _) | some (.nationalString _) | some (.hexString _)
  | some (.placeholder _) | some (.sign ..) =>
    skipValue
    return (.other, true)
  | _ =>
    match ← next with
    | .word text capitals => wordOperand nested interval text capitals
    | .quoted _ text => return (← namedOperand nested interval text false, true)
    | .symbol "+" | .symbol "-" =>
      tighter nested Power.product
      return (.other, true)
    | .symbol "(" =>
      grouped nested
      return (.other, true)
    | .symbol "\x7b" =>
      braced nested interval
      return (.other, true)
    | _ => mismatch

/-- An operand. Intervals begin with operands in their turn, of which there are no more than
tokens in the budget. -/
def operandWithin : List Token → Reader Term
  | [] => mismatch
  | _ :: budget => do
      let length : Reader Unit := do
        let _ ← operandWithin budget
      if (← attempt (typedLiteral (interval length))).isSome then return .other
      else
        let (term, collates) ← bareOperand nested (interval length)
        if collates then
          if ← keyword? "COLLATE" then
            skipName
            return .other
          else return term
        else return term

def operand : Reader Term := fun tokens => operandWithin nested tokens tokens

def intervalEnd : Reader Unit := interval do
  let _ ← operand nested

/-- An operand with the parts of it that are reached by points. A star behind a point is left
in place, and the point with it. -/
def path : Reader Term := do
  let term ← operand nested
  let parts ← collect do
    if ← ahead fun tokens => match tokens with
      | .symbol "." :: .symbol "*" :: _ => true
      | _ => false
    then return none
    else if ← symbol? "." then
      match ← peek with
      | some (.string _) =>
        let _ ← next
      | _ => tighter nested Power.point
      return some ()
    else return none
  return if parts.isEmpty then term else .other

/-! ## Operators -/

def comparisons : List String :=
  [":=", "=", "==", "<", "<=", "<>", "!=", ">", ">=", "~", "~*", "!~", "!~*", "~~", "~~*", "!~~",
    "!~~*", "<=>"]

def arrows : List String := ["->", "->>", "#>", "#>>", "@>", "<@", "#-", "@?", "@@"]

def powerAhead : List Token → Nat
  | .symbol text :: _ =>
      if comparisons.contains text then Power.comparison
      else if arrows.contains text then Power.arrow
      else
        match text with
        | "+" | "-" => Power.sum
        | "*" | "/" | "%" | "||" => Power.product
        | "|" | "&&" => Power.bar
        | "^" | "#" | ">>" | "<<" => Power.caret
        | "&" => Power.ampersand
        | "::" | "!" | "^@" => Power.cast
        | "." => Power.point
        | _ => Power.any
  | .word _ capitals :: rest =>
      match capitals with
      | "OR" => Power.disjunction
      | "AND" => Power.conjunction
      | "XOR" => Power.exclusion
      | "AT" => if (afterKeywords? ["TIME", "ZONE"] rest).isSome then Power.zone else Power.any
      | "IS" => Power.truth
      | "IN" | "BETWEEN" | "OVERLAPS" | "OPERATOR" => Power.comparison
      | "LIKE" | "ILIKE" | "RLIKE" | "REGEXP" | "MATCH" | "SIMILAR" | "MEMBER" => Power.pattern
      | "DIV" => Power.product
      | "NOT" =>
        match rest with
        | .word _ following :: _ =>
          match following with
          | "IN" | "BETWEEN" => Power.comparison
          | "LIKE" | "ILIKE" | "RLIKE" | "REGEXP" | "MATCH" | "SIMILAR" | "MEMBER" =>
            Power.pattern
          | _ => Power.any
        | _ => Power.any
      | _ => Power.any
  | _ => Power.any

def plainOperators : List String := ["+", "-", "*", "/", "%", "||", "|", "^", "&"]

def rightSide (power : Nat) (comparesMany : Bool) : Reader Unit := do
  if (← oneOf? ["ANY", "ALL", "SOME"]).isSome then
    if ← ahead fun tokens => match tokens with
      | .symbol "(" :: token :: _ => token.isKeyword "SELECT" || token.isKeyword "WITH"
      | _ => false
    then tighter nested power
    else parenthesized (tighter nested power)
    if !comparesMany then mismatch
  else tighter nested power

def truthTest : Reader Unit := do
  let _ ← keyword? "NOT"
  if (← oneOf? ["NULL", "TRUE", "FALSE", "UNKNOWN"]).isNone then
    if ← keywords? ["DISTINCT", "FROM"] then expression nested
    else
      let _ ← oneOf? ["NFC", "NFD", "NFKC", "NFKD"]
      keyword "NORMALIZED"

def membership : Reader Unit := do
  if ← keyword? "UNNEST" then parenthesized (expression nested)
  else parenthesized do
    if (← attempt nested.query).isNone then
      if !(← atSymbol ")") then skipList (expression nested)

def pattern : Reader Unit := do
  tighter nested Power.pattern
  whenever (keyword? "ESCAPE") skipValue

def negatable : Reader Unit := do
  let _ ← keyword? "NOT"
  let regexp ← keyword? "REGEXP"
  let rlike ← keyword? "RLIKE"
  if regexp || rlike then tighter nested Power.pattern
  else if ← keyword? "IN" then membership nested
  else if ← keyword? "BETWEEN" then
    tighter nested Power.comparison
    keyword "AND"
    tighter nested Power.comparison
  else if (← oneOf? ["LIKE", "ILIKE"]).isSome then
    let _ ← keyword? "ANY"
    pattern nested
  else
    keywords ["SIMILAR", "TO"]
    pattern nested

def negatableWords : List String :=
  ["NOT", "IN", "BETWEEN", "LIKE", "ILIKE", "SIMILAR", "REGEXP", "RLIKE"]

/-- An operator and its right side, given how tight it binds. After a match the right side is
indispensable. -/
def operation (power : Nat) : Reader Unit := do
  if (← oneOf? ["REGEXP", "MATCH"]).isSome then indispensable (expression nested)
  else if ← atKeyword negatableWords then negatable nested
  else
    match ← next with
    | .symbol text =>
      if comparisons.contains text then
        rightSide nested power (text != ":=" && text != "<=>")
      else if arrows.contains text || plainOperators.contains text then
        rightSide nested power false
      else if text = "::" then skipType
      else mismatch
    | .word _ capitals =>
      match capitals with
      | "AND" | "OR" | "XOR" | "OVERLAPS" => rightSide nested power false
      | "IS" => truthTest nested
      | "AT" =>
        keywords ["TIME", "ZONE"]
        tighter nested power
      | "MEMBER" =>
        keyword "OF"
        parenthesized (expression nested)
      | _ => mismatch
    | _ => mismatch

def operations (power : Nat) : Reader Bool := do
  let found ← collect do
    let binding := powerAhead (← get)
    if binding ≤ power || (← atSymbol ".") then return none
    else
      operation nested binding
      return some ()
  return !found.isEmpty

def expressionAbove (power : Nat) : Reader Term := do
  let term ← path nested
  return if ← operations nested power then .other else term

end Reader

end Tabular.Sql
