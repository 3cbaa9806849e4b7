import Tabular.Byte
import Tabular.Text.Utf8

/-!
The values a table hands to its host: NULL, or text as the bytes it came in.
-/
namespace Tabular.Host

inductive Value where
  | null
  | text (bytes : Bytes)
  deriving DecidableEq, Repr, Inhabited

namespace Value

def isNull : Value → Bool
  | .null => true
  | .text _ => false

def bytes? : Value → Option Bytes
  | .null => none
  | .text bytes => some bytes

def text? (v : Value) : Option String := v.bytes?.bind Utf8.decode?

end Value

/-- Where a column leaves its value for the host, which takes it away. -/
structure ColumnContext where
  value : Option Value := none
  deriving DecidableEq, Repr, Inhabited

namespace ColumnContext

def setText (_ : ColumnContext) (bytes : Bytes) : ColumnContext := { value := some (.text bytes) }

def setNull (_ : ColumnContext) : ColumnContext := { value := some .null }

def take (c : ColumnContext) : Option Value × ColumnContext := (c.value, { value := none })

end ColumnContext

end Tabular.Host
