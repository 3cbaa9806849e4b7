/-!
The shortest decimal that reads back as a given binary number, among those of the fewest digits
the one nearest to it.
-/
namespace Tabular.Decimal

/-- The number `digits · 10 ^ exponent`. -/
structure Scaled where
  digits : Nat
  exponent : Int
  deriving DecidableEq, Repr, Inhabited

/-- A positive number with the ends of the interval of numbers that round to it, all of them
multiples of one unit, `numerator / denominator`. -/
structure Interval where
  low : Nat
  value : Nat
  high : Nat
  /-- The ends round to the number, too. -/
  closed : Bool
  numerator : Nat
  denominator : Nat
  deriving DecidableEq, Repr

namespace Interval

/-- The interval of the binary number `mantissa · 2 ^ exponent`. A mantissa at the lower end of
its range has its lower neighbour at half the distance. -/
def ofBinary (mantissa : Nat) (exponent : Int) (lowest : Bool) : Interval :=
  { low := 4 * mantissa - if lowest then 1 else 2
    value := 4 * mantissa
    high := 4 * mantissa + 2
    closed := mantissa % 2 == 0
    numerator := 1 <<< (exponent - 2).toNat
    denominator := 1 <<< (2 - exponent).toNat }

def tenTo (exponent : Int) : Nat × Nat :=
  (Nat.pow 10 exponent.toNat, Nat.pow 10 (-exponent).toNat)

def scaled (i : Interval) (d : Scaled) : Nat :=
  d.digits * (tenTo d.exponent).1 * i.denominator

def bound (i : Interval) (multiple : Nat) (exponent : Int) : Nat :=
  multiple * i.numerator * (tenTo exponent).2

def contains (i : Interval) (d : Scaled) : Bool :=
  let point := i.scaled d
  let low := i.bound i.low d.exponent
  let high := i.bound i.high d.exponent
  if i.closed then low ≤ point && point ≤ high else low < point && point < high

def below (i : Interval) (exponent : Int) : Scaled :=
  { digits := i.bound i.value exponent / ((tenTo exponent).1 * i.denominator), exponent }

/-- How far the decimal is from the number, in a unit that depends on its exponent alone. -/
def distance (i : Interval) (d : Scaled) : Nat :=
  let point := i.scaled d
  let value := i.bound i.value d.exponent
  if point ≤ value then value - point else point - value

/-- The nearer of the two neighbours of the number on the grid of a power of ten, if one of them
rounds to it. Of two equally near ones the greater is taken. -/
def nearest? (i : Interval) (exponent : Int) : Option Scaled :=
  let down := i.below exponent
  let up := { down with digits := down.digits + 1 }
  match i.contains down, i.contains up with
  | true, true => some (if i.distance down < i.distance up then down else up)
  | true, false => some down
  | false, true => some up
  | false, false => none

/-- The least exponent from `start` on, within `limit` steps, for which the number is below that
power of ten. -/
def magnitude (i : Interval) : Nat → Int → Int
  | 0, exponent => exponent
  | limit + 1, exponent =>
      if i.bound i.value exponent < (tenTo exponent).1 * i.denominator then exponent
      else i.magnitude limit (exponent + 1)

def search (i : Interval) : Nat → Int → Option Scaled
  | 0, _ => none
  | limit + 1, exponent =>
      match i.nearest? exponent with
      | some d => some d
      | none => i.search limit (exponent - 1)

end Interval

inductive Binary64 where
  | nan
  | infinite (negative : Bool)
  | zero (negative : Bool)
  /-- A number `mantissa · 2 ^ exponent`; `lowest` tells that its lower neighbour is near. -/
  | finite (negative : Bool) (mantissa : Nat) (exponent : Int) (lowest : Bool)
  deriving DecidableEq, Repr

namespace Binary64

def ofBits (bits : UInt64) : Binary64 :=
  let negative := bits.toNat >>> 63 == 1
  let exponent := bits.toNat >>> 52 % 2048
  let fraction := bits.toNat % (1 <<< 52)
  if exponent = 2047 then (if fraction = 0 then .infinite negative else .nan)
  else if exponent = 0 then
    (if fraction = 0 then .zero negative else .finite negative fraction (-1074) false)
  else
    .finite negative (1 <<< 52 + fraction) ((exponent : Int) - 1075) (fraction == 0 && 1 < exponent)

end Binary64

/-- The same decimal with at most `limit` of its trailing zeros moved into the exponent. -/
def Scaled.trimmed : Nat → Scaled → Scaled
  | 0, d => d
  | limit + 1, d =>
      if d.digits % 10 = 0 && d.digits != 0 then
        trimmed limit { digits := d.digits / 10, exponent := d.exponent + 1 }
      else d

/-- The shortest decimal that rounds to a positive binary number. Seventeen digits are always
enough. -/
def shortest (mantissa : Nat) (exponent : Int) (lowest : Bool) : Scaled :=
  let i := Interval.ofBinary mantissa exponent lowest
  let top := i.magnitude 700 (-330)
  ((i.search 20 (top - 1)).getD (i.below (top - 17))).trimmed 20

end Tabular.Decimal
