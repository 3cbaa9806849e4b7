import Tabular.Sql.Reader
import Tabular.Text

/-!
The smallest parts of the grammar: names and the way they are shown, literals and values.
-/
namespace Tabular.Sql

/-! ## Names -/

structure Identifier where
  text : String
  mark? : Option Char := none
  deriving DecidableEq, Repr, Inhabited

/-- A text as it is shown in quotes. A quote in it is doubled, unless it looks as if it had been:
two quotes in a row and a quote behind a backslash are shown as they are. -/
def escapeQuotes (quote previous : Char) : List Char → List Char
  | [] => []
  | [c] => if c = quote && previous != '\\' then [c, c] else [c]
  | c :: next :: rest =>
      if c = quote then
        if previous = '\\' then c :: escapeQuotes quote previous (next :: rest)
        else if next = quote then c :: next :: escapeQuotes quote c rest
        else c :: c :: escapeQuotes quote c (next :: rest)
      else c :: escapeQuotes quote c (next :: rest)

def inQuotes (quote : Char) (text : String) : String :=
  String.ofList (quote :: escapeQuotes quote '\x00' text.toList ++ [quote])

def Identifier.shown (name : Identifier) : String :=
  match name.mark? with
  | none => name.text
  | some '[' => "[" ++ name.text ++ "]"
  | some mark => inQuotes mark name.text

def shownName (parts : List Identifier) : String :=
  String.intercalate "." (parts.map Identifier.shown)

namespace Reader

/-- A name. A string is one too. -/
def identifier : Reader Identifier
  | .word text _ :: rest => .ok { text } rest
  | .quoted mark text :: rest => .ok { text, mark? := some mark } rest
  | .string text :: rest => .ok { text, mark? := some '\'' } rest
  | tokens => .error .mismatch tokens.tail

def identifier? : Reader (Option Identifier) := attempt identifier

def objectName : Reader (List Identifier) := separatedBy "." identifier

def skipName : Reader Unit := do
  let _ ← objectName

def skipIdentifier : Reader Unit := do
  let _ ← identifier

def columnList : Reader Unit := parenthesized (skipList identifier)

def columnList? : Reader Unit := do
  let _ ← parenthesized? (skipList identifier)

/-! ## Literals -/

/-- A text: a string, or a name that is no keyword. -/
def literalString : Reader String
  | .string text :: rest | .quoted _ text :: rest => .ok text rest
  | .word text capitals :: rest =>
      if isKeyword capitals then .error .mismatch rest else .ok text rest
  | tokens => .error .mismatch tokens.tail

def largestUnsigned : Nat := 0xFFFFFFFFFFFFFFFF

def unsigned : Reader Nat
  | .number text _ :: rest =>
      match Text.digits? text.toList with
      | some value => if value ≤ largestUnsigned then .ok value rest else .error .mismatch rest
      | none => .error .mismatch rest
  | tokens => .error .mismatch tokens.tail

inductive Value where
  | number (shown : String)
  | placeholder (shown : String)
  | text
  /-- A truth value, NULL or bytes. -/
  | other
  deriving DecidableEq, Repr

def valueName : Reader String
  | .word text _ :: rest | .quoted _ text :: rest | .number text false :: rest => .ok text rest
  | tokens => .error .mismatch tokens.tail

def value : Reader Value := do
  match ← next with
  | .word _ capitals =>
    if capitals = "TRUE" || capitals = "FALSE" || capitals = "NULL" then return .other
    else mismatch
  | .quoted mark _ => if mark = '"' then return .text else mismatch
  | .number text long => return .number (if long then text ++ "L" else text)
  | .string _ => return .text
  | .nationalString _ | .hexString _ => return .other
  | .placeholder text => return .placeholder text
  | .sign c joined =>
    if joined then return .placeholder (String.singleton c ++ (← valueName)) else mismatch
  | .symbol _ => mismatch

def skipValue : Reader Unit := do
  let _ ← value

def plainNumber : Reader String := do
  match ← value with
  | .number shown | .placeholder shown => return shown
  | _ => mismatch

def signedNumber : Reader String := do
  if ← symbol? "+" then return "+" ++ (← plainNumber)
  else if ← symbol? "-" then return "-" ++ (← plainNumber)
  else plainNumber

def skipNumber : Reader Unit := do
  let _ ← signedNumber

end Reader

end Tabular.Sql
