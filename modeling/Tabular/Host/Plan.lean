/-!
The plan of a scan: the host offers the terms of a condition, and the table answers which of
them it uses and what the scan costs.
-/
namespace Tabular.Host

inductive ConstraintOp where
  | eq
  | gt
  | le
  | lt
  | ge
  | ne
  | like
  | isNull
  deriving DecidableEq, Repr

/-- A term on offer. Column -1 is the row number. -/
structure Constraint where
  column : Int
  op : ConstraintOp
  /-- The host can supply the value compared with. -/
  usable : Bool
  deriving DecidableEq, Repr

def fullScanCost : Nat := 1000000

structure Plan where
  constraints : List Constraint
  /-- For each term the place of its value among the arguments of the scan, counted from 1, or
  0 if the term is left to the host. -/
  arguments : List Nat
  number : Int := 0
  text : Option String := none
  cost : Nat := fullScanCost
  deriving DecidableEq, Repr

namespace Plan

def new (constraints : List Constraint) : Plan :=
  { constraints, arguments := constraints.map fun _ => 0 }

def firstUsableEq (plan : Plan) : Option Nat :=
  plan.constraints.findIdx? fun c => c.usable && c.op == .eq

end Plan

end Tabular.Host
