import Tabular.Error
import Tabular.Text

/-!
The parameters of a table, given as arguments of the form `key=value`. Blanks around key and
value do not count, and one layer of quoting is taken off the value.
-/
namespace Tabular.Table

/-- The widest table there can be, which is also the limit if none is given. -/
def columnsLimit : Nat := 2000

def eqIndexFlag : UInt32 := 1

structure Params where
  filename : Option String := none
  data : Option String := none
  /-- Kept for whoever asks, and not looked at. -/
  optionsUsed : Option String := none
  maxColumns : Nat := columnsLimit
  testFlags : UInt32 := 0
  deriving DecidableEq, Repr, Inhabited

inductive SourceSpec where
  | file (path : String)
  | inline (text : String)
  deriving DecidableEq, Repr

namespace Params

def source (p : Params) : SourceSpec :=
  match p.filename, p.data with
  | some path, _ => .file path
  | none, some text => .inline text
  | none, none => .inline ""

def hasTestFlag (p : Params) (flag : UInt32) : Bool := p.testFlags &&& flag != 0

def splitAtEquals (text : List Char) : Option (List Char × List Char) :=
  match text.span (· != '=') with
  | (key, _ :: value) => some (key, value)
  | (_, []) => none

/-- Replace each pair of quotes by one, from the left, in front of what is reversed in
`before`. -/
def undoubleInto (quote : Char) (before : List Char) : List Char → List Char
  | a :: b :: rest =>
      if a = quote && b = quote then undoubleInto quote (quote :: before) rest
      else undoubleInto quote (a :: before) (b :: rest)
  | rest => before.reverse ++ rest

def undouble (quote : Char) (text : List Char) : List Char := undoubleInto quote [] text

/-- Whether a value opening with `first` and closing with `last` is in quotes that are doubled
inside. -/
def isQuoted (first last : Char) : Bool :=
  (first == '\'' || first == '"' || first == '`') && last == first

def isBracketed (first last : Char) : Bool := first == '[' && last == ']'

/-- The ends of a value can be told apart from its inside only if each is a single byte. -/
def isSingleByte (c : Char) : Bool := c.toNat < 128

/-- Take one layer of quoting off a value. A value that does not begin and end with characters
of one byte each cannot be examined. -/
def dequote (value : List Char) : Option (List Char) :=
  match value with
  | [] => some []
  | first :: rest =>
    let last := rest.getLastD first
    if !isSingleByte first || !isSingleByte last then none
    else if rest.isEmpty then some value
    else if isQuoted first last then some (undouble first rest.dropLast)
    else if isBracketed first last then some rest.dropLast
    else some value

def split (argument : String) : Except Halt (String × String) :=
  match splitAtEquals argument.toList with
  | none => .error (.failed (.badParameter argument))
  | some (key, value) =>
    let key := Text.trim key
    if key.isEmpty then .error (.failed (.badParameter argument))
    else
      match dequote (Text.trim value) with
      | none => .error .abandoned
      | some value => .ok (String.ofList key, String.ofList value)

structure Reading where
  params : Params := {}
  seenMaxColumns : Bool := false
  seenTestFlags : Bool := false
  deriving DecidableEq, Repr, Inhabited

def once {α : Type} (seen : Bool) (key : String) (value : Except Halt α) : Except Halt α :=
  if seen then .error (.failed (.duplicateParameter key)) else value

def parseMaxColumns (value : String) : Except Halt Nat :=
  match Text.numeral? value.toList with
  | some n =>
    if 1 ≤ n && n ≤ columnsLimit then .ok n
    else .error (.failed (.maxColumnsOutOfRange value columnsLimit))
  | none => .error (.failed (.maxColumnsOutOfRange value columnsLimit))

def parseTestFlags (argument value : String) : Except Halt UInt32 :=
  match Text.numeral? value.toList with
  | some n =>
    if n < UInt32.size then .ok (UInt32.ofNat n) else .error (.failed (.badParameter argument))
  | none => .error (.failed (.badParameter argument))

namespace Reading

/-- Take one argument. `testflags` is a key only of a build with test flags; the program is such a
build. -/
def add (r : Reading) (argument : String) : Except Halt Reading := do
  let (key, value) ← split argument
  let p := r.params
  match key with
  | "filename" => once p.filename.isSome key (.ok { r with params.filename := some value })
  | "data" => once p.data.isSome key (.ok { r with params.data := some value })
  | "options_used" =>
    once p.optionsUsed.isSome key (.ok { r with params.optionsUsed := some value })
  | "max_columns" =>
    once r.seenMaxColumns key do
      let n ← parseMaxColumns value
      .ok { r with params.maxColumns := n, seenMaxColumns := true }
  | "testflags" =>
    once r.seenTestFlags key do
      let flags ← parseTestFlags argument value
      .ok { r with params.testFlags := flags, seenTestFlags := true }
  | _ => .error (.failed (.badParameter argument))

def complete (r : Reading) : Except Halt Params :=
  match r.params.filename, r.params.data with
  | none, none => .error (.failed .missingSource)
  | some path, none => if path.isEmpty then .error (.failed .missingSource) else .ok r.params
  | some _, some _ => .error (.failed .conflictingSource)
  | none, some _ => .ok r.params

end Reading

/-- The parameters that the arguments of a table give. The first argument at fault decides the
error, and only then the source is asked for. -/
def parse (arguments : List String) : Except Halt Params := do
  let reading ← arguments.foldlM Reading.add {}
  reading.complete

end Params

end Tabular.Table
