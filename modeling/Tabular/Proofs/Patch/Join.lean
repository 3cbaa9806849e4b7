import Tabular.Proofs.Patch.Queue

/-!
Overwrites joined with a table, whatever their order. One overwrite at a time is looked at: it is used
if it is meant for the cell at hand, and it stays in front of the others until it is used or its row is
over.
-/
namespace Tabular.Patch

open Csv

/-- What a join comes to: what is written, how many overwrites were used for it, and those that are
left. -/
structure Joined (α : Type) where
  written : α
  used : Nat
  left : List Overwrite

def takenFor (row column : Nat) (queue : List Overwrite) : Option Overwrite :=
  queue.head?.filter fun o => row != 0 && o.hits row column

@[simp] theorem takenFor_header (column : Nat) (queue : List Overwrite) :
    takenFor 0 column queue = none := by
  cases queue <;> rfl

theorem takenFor_cons (row column : Nat) (o : Overwrite) (rest : List Overwrite) :
    takenFor row column (o :: rest) = if row != 0 && o.hits row column then some o else none := by
  rw [takenFor, List.head?_cons, Option.filter_some]

def joinCell (row column : Nat) (queue : List Overwrite) (c : Cell) : Joined Cell :=
  match takenFor row column queue with
  | some o => ⟨{ bytes := o.value, quoted := true }, 1, queue.tail⟩
  | none => ⟨c, 0, queue⟩

def joinCells (row : Nat) : Nat → List Overwrite → Record → Joined Record
  | _, queue, [] => ⟨[], 0, queue⟩
  | column, queue, c :: rest =>
      let first := joinCell row column queue c
      let others := joinCells row (column + 1) first.left rest
      ⟨first.written :: others.written, first.used + others.used, others.left⟩

/-- The overwrites that are left in front of the row `target`. Those for the header wait for the first
row of data. -/
def skipTo (row target : Nat) (queue : List Overwrite) : List Overwrite :=
  if row = 0 then queue else due queue target 0

def joinRow (row : Nat) (queue : List Overwrite) (r : Record) : Joined Record :=
  let cells := joinCells row 0 (skipTo row row queue) r
  { cells with left := skipTo row (row + 1) cells.left }

def joinRows : Nat → List Overwrite → List Record → Joined (List Record)
  | _, queue, [] => ⟨[], 0, queue⟩
  | row, queue, r :: rest =>
      let first := joinRow row queue r
      let others := joinRows (row + 1) first.left rest
      ⟨first.written :: others.written, first.used + others.used, others.left⟩

@[simp] theorem length_joinRows (row : Nat) (queue : List Overwrite) (rs : List Record) :
    (joinRows row queue rs).written.length = rs.length := by
  induction rs generalizing row queue with
  | nil => rfl
  | cons r rest ih => rw [joinRows, List.length_cons, List.length_cons, ih]

def join (all : List Overwrite) (rs : List Record) : Joined (List Record) := joinRows 0 all rs

end Tabular.Patch
