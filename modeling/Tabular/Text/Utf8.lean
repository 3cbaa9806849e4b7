import Tabular.Byte

/-!
UTF-8 as bytes. Decoding tells well-formed characters from ill-formed pieces, a piece being the
longest run of bytes that could still have begun a character.
-/
namespace Tabular.Utf8

inductive Place where
  | between
  /-- Inside a character: the least and the greatest byte that may follow, how many bytes it
  still owes, and the value of the bits so far. -/
  | within (lowest highest : UInt8) (owed value : Nat)
  deriving DecidableEq, Repr, Inhabited

/-- Begin a character with the byte `b`. The second byte of some characters is restricted, so
that no character has a longer form, is half of a pair, or lies beyond the last code point. -/
def lead (b : UInt8) : Option (Option Char) × Place :=
  if b < 0x80 then (some (some (Char.ofNat b.toNat)), .between)
  else if b < 0xC2 then (some none, .between)
  else if b < 0xE0 then (none, .within 0x80 0xBF 1 (b.toNat % 32))
  else if b = 0xE0 then (none, .within 0xA0 0xBF 2 0)
  else if b = 0xED then (none, .within 0x80 0x9F 2 13)
  else if b < 0xF0 then (none, .within 0x80 0xBF 2 (b.toNat % 16))
  else if b = 0xF0 then (none, .within 0x90 0xBF 3 0)
  else if b < 0xF4 then (none, .within 0x80 0xBF 3 (b.toNat % 8))
  else if b = 0xF4 then (none, .within 0x80 0x8F 3 4)
  else (some none, .between)

/-- What has been decoded, the last character first, and where decoding stands. Ill-formed
pieces are decoded to `none`. -/
structure Decoding where
  decoded : List (Option Char) := []
  place : Place := .between

namespace Decoding

def begin (d : Decoding) (b : UInt8) : Decoding :=
  match lead b with
  | (some piece, place) => { decoded := piece :: d.decoded, place }
  | (none, place) => { d with place }

/-- Take one byte more. A byte that cannot follow ends an ill-formed piece and begins anew. -/
def take (d : Decoding) (b : UInt8) : Decoding :=
  match d.place with
  | .between => d.begin b
  | .within lowest highest owed value =>
    if lowest ≤ b ∧ b ≤ highest then
      let value := value * 64 + b.toNat % 64
      if owed ≤ 1 then { decoded := some (Char.ofNat value) :: d.decoded, place := .between }
      else { d with place := .within 0x80 0xBF (owed - 1) value }
    else begin { d with decoded := none :: d.decoded } b

/-- The pieces in order. A character cut short by the end is ill-formed. -/
def pieces (d : Decoding) : List (Option Char) :=
  match d.place with
  | .between => d.decoded.reverse
  | .within .. => (none :: d.decoded).reverse

end Decoding

/-- The characters of a byte string in order, with `none` for each ill-formed piece. -/
def pieces (bytes : Bytes) : List (Option Char) := (bytes.foldl Decoding.take {}).pieces

def decode? (bytes : Bytes) : Option String :=
  let found := pieces bytes
  if found.all Option.isSome then some (String.ofList (found.filterMap id)) else none

/-- The text of any byte string, each ill-formed piece being shown as U+FFFD. -/
def decodeLossy (bytes : Bytes) : String :=
  String.ofList ((pieces bytes).map (·.getD (Char.ofNat 0xFFFD)))

def encode (text : String) : Bytes := text.toByteArray.data.toList

end Tabular.Utf8
