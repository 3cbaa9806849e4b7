import Tabular.Csv.Grammar
import Tabular.Patch.Overwrite

/-!
Overwrites applied to a whole table at once. Only cells that are there are changed, and none of
the header.
-/
namespace Tabular.Patch

/-- A cell after the first overwrite that is meant for it, whose value is written in quotes. Row
0 is the header. -/
def editCell (overwrites : List Overwrite) (row column : Nat) (c : Cell) : Cell :=
  if row = 0 then c
  else
    match overwrites.find? (·.hits row column) with
    | some o => { bytes := o.value, quoted := true }
    | none => c

def editRecord (overwrites : List Overwrite) (row : Nat) (record : Csv.Record) : Csv.Record :=
  record.mapIdx fun column c => editCell overwrites row column c

def edit (overwrites : List Overwrite) (records : List Csv.Record) : List Csv.Record :=
  records.mapIdx fun row record => editRecord overwrites row record

/-- Some overwrite is meant for the cell, and it is no cell of the header. -/
def isEdited (overwrites : List Overwrite) (row column : Nat) : Bool :=
  row != 0 && overwrites.any (·.hits row column)

def countEdited (overwrites : List Overwrite) (records : List Csv.Record) : Nat :=
  (records.mapIdx fun row record =>
    record.mapIdx fun column _ => isEdited overwrites row column).flatten.count true

/-- Overwrites that ascend by row, and within a row by column, no cell coming twice. -/
def Ascending (overwrites : List Overwrite) : Prop :=
  overwrites.Pairwise fun a b => a.row < b.row ∨ (a.row = b.row ∧ a.column < b.column)

instance (overwrites : List Overwrite) : Decidable (Ascending overwrites) := by
  unfold Ascending
  infer_instance

end Tabular.Patch
