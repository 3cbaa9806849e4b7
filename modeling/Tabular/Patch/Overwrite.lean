import Tabular.Byte
import Tabular.Error

/-!
Overwrites of single cells, and a stream that yields them one at a time. Which fetch fails, if
one does, is fixed in advance.
-/
namespace Tabular.Patch

/-- The new text of one cell. Rows are counted from 0, the header being row 0, and so are the
columns. -/
structure Overwrite where
  row : Nat
  column : Nat
  value : Bytes
  deriving DecidableEq, Repr, Inhabited

def Overwrite.hits (o : Overwrite) (row column : Nat) : Bool := o.row = row && o.column = column

/-- A stream of overwrites. It is meant to ascend by row and column, which nothing checks. -/
structure Stream where
  remaining : List Overwrite
  /-- Fetches so far. -/
  fetches : Nat := 0
  /-- The fetch that fails, counted from 1, and the text of its failure. -/
  fault : Option (Nat × String) := none
  deriving Repr, Inhabited

namespace Stream

def ofList (overwrites : List Overwrite) : Stream := { remaining := overwrites }

def fetch (s : Stream) : Except Error (Option Overwrite) × Stream :=
  let fetches := s.fetches + 1
  match s.fault with
  | some (number, detail) =>
    if fetches = number then (.error (.overwriteSource detail), { s with fetches })
    else (.ok s.remaining.head?, { s with fetches, remaining := s.remaining.tail })
  | none => (.ok s.remaining.head?, { s with fetches, remaining := s.remaining.tail })

theorem fetch_remaining (s : Stream) (o : Overwrite) (fetched : s.fetch.1 = .ok (some o)) :
    s.remaining = o :: s.fetch.2.remaining := by
  unfold fetch at fetched ⊢
  cases remaining : s.remaining with
  | nil =>
    rw [remaining] at fetched
    dsimp only at fetched
    split at fetched
    · split at fetched <;> simp at fetched
    · simp at fetched
  | cons first rest =>
    rw [remaining] at fetched
    dsimp only at fetched ⊢
    split at fetched
    · split at fetched
      · simp at fetched
      · rename_i fault number detail given other
        rw [given]
        simp_all
    · rename_i given
      rw [given]
      simp_all

end Stream

end Tabular.Patch
