import Tabular.Proofs.Csv.RoundTrip
import Tabular.Proofs.Csv.SecondMark
import Tabular.Proofs.Echo.RepeatedOverwrites
import Tabular.Proofs.Patch.AnyOrder

/-!
An echo of an echo. What an echo writes holds its records in the one form that a reader finds again,
however leniently they were read, so that a second echo changes nothing.
-/
namespace Tabular

namespace Csv

open Grammar

namespace Encoding

@[simp] theorem readBack_again (r : Record) : readBack (readBack r) = readBack r := by
  have length : (readBack r).length = r.length := by rw [readBack, List.length_map]
  rw [readBack, length]
  conv_lhs => rw [readBack]
  rw [List.map_map, readBack]
  apply List.map_congr_left
  intro c _
  simp only [Function.comp_apply, isQuoted_flagged, Bool.or_assoc, Bool.or_self]

@[simp] theorem row_readBack (r : Record) : row (readBack r) = row r := by
  rw [row_eq_readBack, readBack_again, ← row_eq_readBack]

@[simp] theorem table_readBack (withMark : Bool) (rs : List Record) :
    table withMark (rs.map readBack) = table withMark rs := by
  rw [table, table, List.flatMap_map]
  simp

theorem reference_unmarked {rs : List Record} (filled : ∀ r ∈ rs, r ≠ [])
    (unmarked : startsWithMark (table false rs) = false) :
    reference Byte.comma (table false rs) = rs.map readBack ∧ SingleMark (table false rs) := by
  have whole : withoutMark (table false rs) = rs.flatMap row := by
    rw [withoutMark, unmarked, if_neg Bool.false_ne_true]
    rfl
  constructor
  · rw [reference, whole, records_rows filled]
  · rw [SingleMark, whole, rows_dropWhile filled]
    exact unmarked

end Encoding

/-! ## What a parse delivers -/

theorem readAs_filled (delimiter : UInt8) (front text : Bytes) :
    ∀ r ∈ readAs delimiter front text, r ≠ [] := by
  unfold readAs
  split
  · split
    · exact fun r member => by cases member
    · have filled := records_filled delimiter
        ((text.dropWhile Byte.isLineBreak).drop byteOrderMark.length)
      generalize records delimiter _ = rs at filled ⊢
      intro r member
      rcases rs with _ | ⟨_ | ⟨c, cells⟩, rest⟩
      · cases member
      · exact filled r member
      · rcases List.mem_cons.mp member with rfl | later
        · exact List.cons_ne_nil _ _
        · exact filled r (List.mem_cons_of_mem _ later)
  · exact records_filled delimiter text

/-- A parse that accepts its input delivers no empty record, and with a single mark in front of the
input it delivers the records that are there. -/
theorem delivered_records {input : Bytes} {reads : List ReadEvent} {options : Options}
    {rs : List Record} (steady : ∀ event ∈ reads, event.isSteady = true)
    (accepts : delivered (Source.ofBytes input reads) options = .ok rs) :
    (∀ r ∈ rs, r ≠ []) ∧ (SingleMark input → rs = reference options.delimiter input) := by
  have allowed := (Echo.handsOver_of_delivered accepts).1
  obtain ⟨front, rows, taken, ending, takes, deliver, run⟩ :=
    Parser.initial_drains (Source.ofBytes input reads) steady allowed
  rw [delivered_of_handsOver allowed (Parser.handsOver_of_run run), deliver.cells] at accepts
  rcases ending with error | _
  · cases accepts
  · obtain rfl : taken = rs := Except.ok.inj accepts
    rw [takes.all_of_ok]
    refine ⟨readAs_filled _ _ _, fun single => ?_⟩
    obtain ⟨later, split⟩ := front
    rw [SingleMark, show withoutMark input = withoutMark (Source.ofBytes input reads).rest from rfl,
      ← split] at single
    rw [readAs_literal _ (Parser.startsWithMark_append single)]
    rfl

end Csv

namespace Echo

open Csv Patch

theorem echo_without_overwrites {source : Source} {options : Options} (allowed : options.Allowed)
    {rows : List Row} (handed : (Parser.initial source options).HandsOver rows (.ok ())) :
    let run := echo source {} (Patch.Stream.ofList []) false options
    run.result = .ok { rows := rows.length } ∧
      run.out.bytes = Encoding.table false (rows.map Row.cells) := by
  intro run
  obtain ⟨written, used⟩ := join_nil (rows.map Row.cells)
  have sound : Sound (Patch.Stream.ofList []) := fun number detail fault => by cases fault
  have room : ({} : Output).HasRoom (Encoding.table false
      (join (Patch.Stream.ofList []).remaining (rows.map Row.cells)).written) :=
    fun room limit => by cases limit
  obtain ⟨rest, same⟩ := echo_joins allowed handed sound room rfl
  rw [show (Patch.Stream.ofList []).remaining = [] from rfl, written, used] at same
  have ran : run = _ := same
  rw [ran]
  exact ⟨rfl, Output.extended_bytes _ _⟩

/-- An echo of what an echo has written writes the same once more, unless that opens with a byte-order
mark, which the second one would leave out. The records may come of any reading of the input and are
within the limits of the second parse. -/
theorem echo_of_echo (input : Bytes) (reads reads' : List ReadEvent) (options options' : Options)
    (steady : ∀ event ∈ reads, event.isSteady = true)
    (steady' : ∀ event ∈ reads', event.isSteady = true) (rs : List Record)
    (accepts : delivered (Source.ofBytes input reads) options = .ok rs)
    (allowed : options'.Allowed) (comma : options'.delimiter = Byte.comma)
    (fits : ∀ r ∈ rs, options'.Fits r) :
    let first := echo (Source.ofBytes input reads) {} (Patch.Stream.ofList []) false options
    let second :=
      echo (Source.ofBytes first.out.bytes reads') {} (Patch.Stream.ofList []) false options'
    first.result = .ok { rows := rs.length } ∧
      first.out.bytes = Encoding.table false rs ∧
      (SingleMark input → rs = reference options.delimiter input) ∧
      (startsWithMark first.out.bytes = false →
        second.result = first.result ∧ second.out.bytes = first.out.bytes) := by
  intro first second
  obtain ⟨filled, single⟩ := delivered_records steady accepts
  obtain ⟨allowed₁, rows, handed, rfl⟩ := handsOver_of_delivered accepts
  obtain ⟨result, bytes⟩ := echo_without_overwrites allowed₁ handed
  have result₁ : first.result = .ok { rows := (rows.map Row.cells).length } := by
    rw [List.length_map]
    exact result
  have bytes₁ : first.out.bytes = Encoding.table false (rows.map Row.cells) := bytes
  refine ⟨result₁, bytes₁, single, fun unmarked => ?_⟩
  rw [bytes₁] at unmarked
  obtain ⟨same, alone⟩ := Encoding.reference_unmarked filled unmarked
  have fits' : ∀ r ∈ reference options'.delimiter (Encoding.table false (rows.map Row.cells)),
      options'.Fits r := by
    rw [comma, same]
    intro r member
    obtain ⟨raw, among, rfl⟩ := List.mem_map.mp member
    exact (fits raw among).readBack
  obtain ⟨rows', deliver, handed'⟩ := Parser.initial_handsOver
    (Source.ofBytes (Encoding.table false (rows.map Row.cells)) reads') steady' allowed alone fits'
  obtain ⟨result', bytes'⟩ := echo_without_overwrites allowed handed'
  have cells : rows'.map Row.cells = (rows.map Row.cells).map Encoding.readBack := by
    rw [← same, ← comma]
    exact deliver.cells
  have length : rows'.length = (rows.map Row.cells).length := by
    rw [← List.length_map (f := Row.cells), cells, List.length_map]
  have again : second = echo (Source.ofBytes (Encoding.table false (rows.map Row.cells)) reads') {}
      (Patch.Stream.ofList []) false options' := by
    rw [← bytes₁]
  rw [again, result₁, bytes₁, result', bytes', length, cells, Encoding.table_readBack]
  exact ⟨rfl, rfl⟩

/-- Text behind a closing quote, a quote within a cell, a blank line and an open quote at the end. -/
theorem echo_of_lenient_echo :
    let input : Bytes := [34, 97, 34, 98, 44, 99, 34, 100, 13, 10, 10, 44, 13, 34, 101]
    let options' : Options := { bufferSize := 6, maxColumns := 2, readChunk := 2 }
    let first := echo (Source.ofBytes input [.atMost 4]) {} (Patch.Stream.ofList []) false {}
    let second := echo (Source.ofBytes first.out.bytes [.interrupted, .atMost 1]) {}
      (Patch.Stream.ofList []) false options'
    delivered (Source.ofBytes input [.atMost 4]) {} = .ok
        [[⟨[97, 98], true⟩, ⟨[99, 34, 100], false⟩], [⟨[], false⟩, ⟨[], false⟩], [⟨[101], true⟩]] ∧
      first.out.bytes =
        [34, 97, 98, 34, 44, 34, 99, 34, 34, 100, 34, 10, 44, 10, 34, 101, 34, 10] ∧
      second.result = .ok { rows := 3 } ∧ second.out.bytes = first.out.bytes := by
  intro input options' first second
  have accepts : delivered (Source.ofBytes input [.atMost 4]) {} = .ok
      [[⟨[97, 98], true⟩, ⟨[99, 34, 100], false⟩], [⟨[], false⟩, ⟨[], false⟩], [⟨[101], true⟩]] := by
    decide +kernel
  obtain ⟨result, bytes, -, again⟩ := echo_of_echo input [.atMost 4] [.interrupted, .atMost 1] {}
    options' (by decide) (by decide) _ accepts ⟨rfl, by decide, by decide⟩ rfl (by decide)
  have bytes' : first.out.bytes =
      [34, 97, 98, 34, 44, 34, 99, 34, 34, 100, 34, 10, 44, 10, 34, 101, 34, 10] :=
    bytes.trans (by decide)
  obtain ⟨same, written⟩ := again (by rw [show first.out.bytes = _ from bytes']; decide)
  exact ⟨accepts, bytes', same.trans result, written⟩

end Echo

end Tabular
