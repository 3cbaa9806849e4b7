import Tabular.Csv.Steps
import Tabular.Csv.Writer
import Tabular.Patch.Overwrite

/-!
Echo: records are parsed and written again, some cells replaced on the way. The overwrites are
merged with the rows from a stream, one overwrite at a time being held back until its cell
comes or can come no more.
-/
namespace Tabular

namespace Echo

/-- What an echo counts: the rows written, the header included, and the cells overwritten. -/
structure Stats where
  rows : Nat := 0
  overwritten : Nat := 0
  deriving DecidableEq, Repr, Inhabited

structure Merge where
  writer : Csv.Writer
  patches : Patch.Stream
  /-- The overwrite held back. -/
  pending : Option Patch.Overwrite
  stats : Stats := {}

namespace Merge

def fetch (m : Merge) : Except Error Unit × Merge :=
  match m.patches.fetch with
  | (.error error, patches) => (.error error, { m with patches, pending := none })
  | (.ok pending, patches) => (.ok (), { m with patches, pending })

def ahead (m : Merge) : Nat := m.patches.remaining.length + if m.pending.isSome then 1 else 0

theorem ahead_fetch_lt (m : Merge) (held : m.pending.isSome = true)
    (fetched : m.fetch.1 = .ok ()) : m.fetch.2.ahead < m.ahead := by
  have next := m.patches.fetch_remaining
  unfold fetch at fetched ⊢
  cases taken : m.patches.fetch with
  | mk outcome patches =>
    rw [taken] at next fetched
    cases outcome with
    | error error => simp at fetched
    | ok pending =>
      cases pending with
      | none =>
        have kept : patches.remaining.length ≤ m.patches.remaining.length := by
          have same : patches = m.patches.fetch.2 := by rw [taken]
          rw [same]
          unfold Patch.Stream.fetch
          dsimp only
          split
          · split <;> simp
          · simp
        simp only [ahead, held, ↓reduceIte, Option.isSome_none, Bool.false_eq_true]
        omega
      | some o =>
        have rest := next o rfl
        simp only [ahead, held, rest, List.length_cons, Option.isSome_some, ↓reduceIte]
        omega

def skipBefore (m : Merge) (row : Nat) : Except Error Unit × Merge :=
  match _held : m.pending with
  | none => (.ok (), m)
  | some o =>
    if row ≤ o.row then (.ok (), m)
    else
      match _fetched : m.fetch with
      | (.error error, next) => (.error error, next)
      | (.ok (), next) => next.skipBefore row
termination_by m.ahead
decreasing_by
  have less := m.ahead_fetch_lt (by rw [_held]; rfl) (by rw [_fetched])
  rw [_fetched] at less
  exact less

/-- The overwrite for a cell of a data row, if it is the one held back. The next one is fetched
before it is used. -/
def hit (m : Merge) (row column : Nat) : Except Error (Option Patch.Overwrite) × Merge :=
  match m.pending with
  | some o =>
    if 0 < row && o.hits row column then
      match m.fetch with
      | (.error error, m) => (.error error, m)
      | (.ok (), m) => (.ok (some o), m)
    else (.ok none, m)
  | none => (.ok none, m)

def write (m : Merge) (text : Bytes) (forced : Bool) : Except Error Unit × Merge :=
  let (outcome, writer) := m.writer.cell text forced
  (outcome, { m with writer })

def cell (m : Merge) (row column : Nat) (c : Cell) : Except Error Unit × Merge :=
  match m.hit row column with
  | (.error error, m) => (.error error, m)
  | (.ok none, m) => m.write c.bytes c.quoted
  | (.ok (some o), m) =>
    match m.write o.value true with
    | (.error error, m) => (.error error, m)
    | (.ok (), m) => (.ok (), { m with stats.overwritten := m.stats.overwritten + 1 })

def cells (m : Merge) (row column : Nat) : List Cell → Except Error Unit × Merge
  | [] => (.ok (), m)
  | c :: rest =>
    match m.cell row column c with
    | (.error error, m) => (.error error, m)
    | (.ok (), m) => m.cells row (column + 1) rest

/-- Overwrites never touch the header, nor wait for one. -/
def skipInData (m : Merge) (row target : Nat) : Except Error Unit × Merge :=
  if row = 0 then (.ok (), m) else m.skipBefore target

def endRow (m : Merge) : Except Error Unit × Merge :=
  match m.writer.endRow with
  | (.error error, writer) => (.error error, { m with writer })
  | (.ok (), writer) => (.ok (), { m with writer, stats.rows := m.stats.rows + 1 })

/-- Write one row. Overwrites for its missing cells are dropped before it ends. -/
def row (m : Merge) (cells : List Cell) : Except Error Unit × Merge :=
  let number := m.stats.rows
  match m.skipInData number number with
  | (.error error, m) => (.error error, m)
  | (.ok (), m) =>
    match m.cells number 0 cells with
    | (.error error, m) => (.error error, m)
    | (.ok (), m) =>
      match m.skipInData number (number + 1) with
      | (.error error, m) => (.error error, m)
      | (.ok (), m) => m.endRow

end Merge

def rowHandler : Csv.RowHandler Merge := fun row m => m.row row.cells

structure Run where
  result : Except Error Stats
  out : Output
  patches : Patch.Stream

def copy (parser : Csv.Parser) (merge : Merge) : Run :=
  match parser.drain rowHandler merge with
  | (.error error, _, m) => ⟨.error error, m.writer.out, m.patches⟩
  | (.ok (), _, m) =>
    match m.writer.flush with
    | .error error => ⟨.error error, m.writer.out, m.patches⟩
    | .ok () => ⟨.ok m.stats, m.writer.out, m.patches⟩

end Echo

/-- Parse a source and write it to an output with its overwrites in place. The first overwrite
is fetched before anything is written. -/
def echo (source : Source) (out : Output) (patches : Patch.Stream) (withMark : Bool)
    (options : Csv.Options) : Echo.Run :=
  match Csv.Parser.new source options with
  | .error error => ⟨.error error, out, patches⟩
  | .ok parser =>
    match patches.fetch with
    | (.error error, patches) => ⟨.error error, out, patches⟩
    | (.ok pending, patches) =>
      match Csv.Writer.new out withMark with
      | (.error error, writer) => ⟨.error error, writer.out, patches⟩
      | (.ok (), writer) => Echo.copy parser { writer, patches, pending }

end Tabular
