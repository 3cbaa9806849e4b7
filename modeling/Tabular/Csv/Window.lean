import Tabular.Byte
import Tabular.Stream.Source

/-!
The input window: what was read from the source and waits to be tokenized. It is refilled
from its front when nothing waits, and behind the waiting bytes otherwise.
-/
namespace Tabular.Csv

structure Window where
  capacity : Nat
  /-- How far the window is filled, used bytes included. -/
  filled : Nat := 0
  /-- The bytes that wait, which are the last ones filled in. -/
  pending : Bytes := []
  deriving Repr, Inhabited

namespace Window

def position (w : Window) : Nat := w.filled - w.pending.length

def recycled (w : Window) : Window :=
  if w.pending.isEmpty then { w with filled := 0 } else w

@[simp] theorem recycled_pending (w : Window) : w.recycled.pending = w.pending := by
  unfold recycled
  split <;> rfl

@[simp] theorem recycled_capacity (w : Window) : w.recycled.capacity = w.capacity := by
  unfold recycled
  split <;> rfl

def request (w : Window) (chunk : Nat) : Nat := min (w.filled + chunk) w.capacity - w.filled

def append (w : Window) (bytes : Bytes) : Window :=
  { w with filled := w.filled + bytes.length, pending := w.pending ++ bytes }

@[simp] theorem append_capacity (w : Window) (bytes : Bytes) :
    (w.append bytes).capacity = w.capacity := rfl

@[simp] theorem append_pending (w : Window) (bytes : Bytes) :
    (w.append bytes).pending = w.pending ++ bytes := rfl

/-- Read more bytes behind the waiting ones. The flag tells whether the source had none. -/
def refill (w : Window) (source : Source) (chunk : Nat) :
    Except Error Bool × Window × Source :=
  let w := w.recycled
  match source.read (w.request chunk) with
  | (.error error, source) => (.error error, w, source)
  | (.ok bytes, source) => (.ok bytes.isEmpty, w.append bytes, source)

@[simp] theorem refill_source (w : Window) (source : Source) (chunk : Nat) :
    (w.refill source chunk).2.2 = (source.read (w.recycled.request chunk)).2 := by
  unfold refill
  dsimp only
  rcases source.read (w.recycled.request chunk) with ⟨outcome, rest⟩
  cases outcome <;> rfl

@[simp] theorem refill_capacity (w : Window) (source : Source) (chunk : Nat) :
    (w.refill source chunk).2.1.capacity = w.capacity := by
  unfold refill
  dsimp only
  rcases source.read (w.recycled.request chunk) with ⟨outcome, rest⟩
  cases outcome <;> exact w.recycled_capacity

/-- Leave out a byte-order mark at the very front of the window. -/
def skipMark (w : Window) : Window :=
  if w.position = 0 && startsWithMark w.pending then { w with pending := w.pending.drop 3 } else w

def skipLineBreaks (w : Window) : Window :=
  { w with pending := w.pending.dropWhile Byte.isLineBreak }

end Window

end Tabular.Csv
