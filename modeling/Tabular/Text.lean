/-!
Small rules of text: blanks and trimming, the case of ASCII letters, and decimal numerals.
-/
namespace Tabular.Text

/-- The characters with the White_Space property. -/
def isBlank (c : Char) : Bool :=
  (0x9 ≤ c.toNat && c.toNat ≤ 0xD) || c.toNat == 0x20 || c.toNat == 0x85 || c.toNat == 0xA0 ||
    c.toNat == 0x1680 || (0x2000 ≤ c.toNat && c.toNat ≤ 0x200A) || c.toNat == 0x2028 ||
    c.toNat == 0x2029 || c.toNat == 0x202F || c.toNat == 0x205F || c.toNat == 0x3000

def trim (text : List Char) : List Char :=
  ((text.dropWhile isBlank).reverse.dropWhile isBlank).reverse

/-! Letters outside ASCII stay as they are. -/

def lower (text : String) : String := text.map Char.toLower

def upper (text : String) : String := text.map Char.toUpper

/-! A numeral has at least one digit, behind a plus sign that may be left out. -/

def digits? (text : List Char) : Option Nat :=
  if text.isEmpty || !text.all Char.isDigit then none
  else some (text.foldl (fun value c => 10 * value + (c.toNat - 48)) 0)

def numeral? : List Char → Option Nat
  | '+' :: digits => digits? digits
  | text => digits? text

end Tabular.Text
