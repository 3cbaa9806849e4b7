import Tabular.Error
import Tabular.Text.Utf8

/-!
The names by which databases are asked for. A name is a path, unless it begins with `file:`:
then it is a URI, which may have an authority before the path, escapes in it, and a fragment
behind it.
-/
namespace Tabular.Patch

inductive DatabaseName where
  /-- A new one, which holds nothing. -/
  | fresh
  /-- The one in the file of a path. -/
  | path (bytes : Bytes)
  deriving DecidableEq, Repr

namespace DatabaseName

def slash : UInt8 := 47
def percent : UInt8 := 37
def hash : UInt8 := 35

def uriScheme : Bytes := Utf8.encode "file:"

def localHost : Bytes := Utf8.encode "localhost"

def memoryName : Bytes := Utf8.encode ":memory:"

def ofBytes (bytes : Bytes) : DatabaseName :=
  if bytes.isEmpty || bytes == memoryName then .fresh else .path bytes

def hexDigit? (b : UInt8) : Option UInt8 :=
  if 48 ≤ b && b ≤ 57 then some (b - 48)
  else if 65 ≤ b && b ≤ 70 then some (b - 55)
  else if 97 ≤ b && b ≤ 102 then some (b - 87)
  else none

def escaped? (sign high low : UInt8) : Option UInt8 :=
  if sign = percent then do some ((← hexDigit? high) * 16 + (← hexDigit? low)) else none

/-- The path of a URI without its escapes. It ends before the fragment, and an escaped zero
hides all that follows. -/
def unescape : Bytes → Bytes
  | sign :: high :: low :: rest =>
      if sign = hash then []
      else
        match escaped? sign high low with
        | some value => if value = 0 then [] else value :: unescape rest
        | none => sign :: unescape (high :: low :: rest)
  | bytes => bytes.takeWhile (· != hash)

/-- The path of a URI, given by what follows its scheme. Its authority can only be the machine
itself; any other one is the error. -/
def uriPath (text : Bytes) : Except Bytes Bytes :=
  match text with
  | 47 :: 47 :: rest =>
    let authority := rest.takeWhile (· != slash)
    if authority.isEmpty || authority == localHost then
      .ok (unescape (rest.dropWhile (· != slash)))
    else .error authority
  | _ => .ok (unescape text)

/-- Read a name. A byte zero cannot be in it. -/
def parse (text : String) : Except String DatabaseName :=
  let bytes := Utf8.encode text
  match bytes.idxOf? 0 with
  | some position => .error s!"nul byte found in provided data at position: {position}"
  | none =>
    if uriScheme.isPrefixOf bytes then
      match uriPath (bytes.drop uriScheme.length) with
      | .ok decoded => .ok (ofBytes decoded)
      | .error authority => .error s!"invalid uri authority: {Utf8.decodeLossy authority}"
    else .ok (ofBytes bytes)

end DatabaseName

end Tabular.Patch
