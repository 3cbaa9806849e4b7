import Tabular.Sql.Token

/-!
Readers of grammar. A reader takes tokens from the front of a list and gives what they stand
for. It may look ahead, try another reader and go back, and repeat a step until the step says it
is done. Repetition is bounded by the number of tokens there are.
-/
namespace Tabular.Sql

inductive Fault where
  /-- The tokens are not what they have to be. -/
  | mismatch
  /-- The tokens are nested deeper than is allowed. -/
  | tooDeep
  /-- The text cannot be examined, whatever else might be tried. -/
  | abandoned
  deriving DecidableEq, Repr

/-- A reader. What it took before it gave up stays taken. -/
abbrev Reader := EStateM Fault (List Token)

namespace Reader

variable {α : Type}

def mismatch : Reader α := throw .mismatch

def peek : Reader (Option Token) := fun tokens => .ok tokens.head? tokens

def ahead (p : List Token → Bool) : Reader Bool := fun tokens => .ok (p tokens) tokens

def next : Reader Token
  | [] => .error .mismatch []
  | token :: rest => .ok token rest

def take? (p : Token → Bool) : Reader Bool
  | [] => .ok false []
  | token :: rest => if p token then .ok true rest else .ok false (token :: rest)

/-! ## Symbols and keywords -/

def symbol? (text : String) : Reader Bool := take? (·.isSymbol text)

def keyword? (keyword : String) : Reader Bool := take? (·.isKeyword keyword)

def afterKeywords? : List String → List Token → Option (List Token)
  | [], tokens => some tokens
  | _ :: _, [] => none
  | keyword :: more, token :: rest =>
      if token.isKeyword keyword then afterKeywords? more rest else none

/-- Take keywords if they are all there, in a row, and tell whether they are. -/
def keywords? (keywords : List String) : Reader Bool := fun tokens =>
  match afterKeywords? keywords tokens with
  | some rest => .ok true rest
  | none => .ok false tokens

def oneOf? (keywords : List String) : Reader (Option String)
  | [] => .ok none []
  | token :: rest =>
      match keywords.find? token.isKeyword with
      | some keyword => .ok (some keyword) rest
      | none => .ok none (token :: rest)

def atKeyword (keywords : List String) : Reader Bool :=
  ahead fun tokens => (tokens.head?.map fun token => keywords.any token.isKeyword).getD false

def atSymbol (text : String) : Reader Bool :=
  ahead fun tokens => (tokens.head?.map (·.isSymbol text)).getD false

def require (found : Reader Bool) : Reader Unit := do
  if !(← found) then mismatch

def symbol (text : String) : Reader Unit := require (symbol? text)

def keyword (keyword : String) : Reader Unit := require (keyword? keyword)

def keywords (keywords : List String) : Reader Unit := require (keywords? keywords)

def oneOf (keywords : List String) : Reader String := do
  match ← oneOf? keywords with
  | some keyword => return keyword
  | none => mismatch

/-! ## Trying -/

/-- Try a reader. Where the tokens are not what it wants, none is taken. -/
def attempt (reader : Reader α) : Reader (Option α) := fun tokens =>
  match reader tokens with
  | .ok value rest => .ok (some value) rest
  | .error .mismatch _ => .ok none tokens
  | .error fault rest => .error fault rest

/-- Try a reader. What it took stays taken, even where it gave up. -/
def venture (reader : Reader α) : Reader (Option α) := fun tokens =>
  match reader tokens with
  | .ok value rest => .ok (some value) rest
  | .error .abandoned rest => .error .abandoned rest
  | .error _ rest => .ok none rest

/-- A reader without which the text cannot be examined. -/
def indispensable (reader : Reader α) : Reader α := fun tokens =>
  match reader tokens with
  | .ok value rest => .ok value rest
  | .error _ rest => .error .abandoned rest

def whenever (found : Reader Bool) (reader : Reader Unit) : Reader Unit := do
  if ← found then reader

/-! ## Repetition -/

/-- Repeat a step as long as it gives values, and no more often than there are tokens in the
budget. -/
def collectWithin (step : Reader (Option α)) : List Token → Reader (List α)
  | [] => return []
  | _ :: budget => do
      match ← step with
      | some value => return value :: (← collectWithin step budget)
      | none => return []

def collect (step : Reader (Option α)) : Reader (List α) := fun tokens =>
  collectWithin step tokens tokens

def loop (step : Reader Bool) : Reader Unit := do
  let _ ← collect do return if ← step then some () else none

def separatedBy (separator : String) (item : Reader α) : Reader (List α) := do
  let first ← item
  let more ← collect do
    if ← symbol? separator then return some (← item) else return none
  return first :: more

def list (item : Reader α) : Reader (List α) := separatedBy "," item

def skipList (item : Reader α) : Reader Unit := do
  let _ ← list item

/-! ## Parentheses -/

def parenthesized (inside : Reader α) : Reader α := do
  symbol "("
  let value ← inside
  symbol ")"
  return value

def parenthesized? (inside : Reader α) : Reader (Option α) := do
  if ← symbol? "(" then
    let value ← inside
    symbol ")"
    return some value
  else return none

def items (item : Reader α) : Reader Unit := parenthesized do
  if !(← atSymbol ")") then skipList item

end Reader

end Tabular.Sql
