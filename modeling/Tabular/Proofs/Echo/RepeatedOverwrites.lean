import Tabular.Proofs.Csv.CutReads
import Tabular.Proofs.Echo.EditedTable

/-!
An echo with overwrites in order of which several may be for the same cell.
-/
namespace Tabular.Echo

open Csv Patch

theorem handsOver_of_delivered {source : Source} {options : Options} {rs : List Record}
    (accepts : delivered source options = .ok rs) :
    options.Allowed ∧ ∃ rows, (Parser.initial source options).HandsOver rows (.ok ()) ∧
      rows.map Row.cells = rs := by
  have allowed : options.Allowed := by
    unfold delivered at accepts
    cases made : Parser.new source options with
    | error error =>
      rw [made] at accepts
      cases accepts
    | ok p => exact (Parser.new_inv made).1
  obtain ⟨rows, ending, handed⟩ := (Parser.initial source options).exists_handsOver rfl
  rw [delivered_of_handsOver allowed handed] at accepts
  cases ending with
  | error error => cases accepts
  | ok _ => exact ⟨allowed, rows, handed, Except.ok.inj accepts⟩

/-- With overwrites in order an echo uses the first one for each cell of the data that is there,
unless an earlier cell of the row has a second one. So it uses one for every such cell exactly if
there is none with an earlier cell of that kind. -/
theorem echo_uses_unmasked (input : Bytes) (reads : List ReadEvent) (options : Options)
    (rs : List Record) (accepts : delivered (Source.ofBytes input reads) options = .ok rs)
    (patches : Patch.Stream) (inOrder : InOrder patches.remaining) (sound : Sound patches)
    (out : Output) (withMark : Bool)
    (room : out.HasRoom (Encoding.table withMark (editUnmasked patches.remaining rs)))
    (flushes : out.flushFailure = none) :
    let all := patches.remaining
    let run := echo (Source.ofBytes input reads) out patches withMark options
    run.result = .ok { rows := rs.length, overwritten := cellCount (isUsed all) rs } ∧
      run.out.bytes = out.bytes ++ Encoding.table withMark (editUnmasked all rs) ∧
      (cellCount (isUsed all) rs = countEdited all rs ↔ NoneMasked all rs) ∧
      (NoneMasked all rs → editUnmasked all rs = edit all rs) := by
  intro all run
  obtain ⟨allowed, rows, handed, rfl⟩ := handsOver_of_delivered accepts
  obtain ⟨written, used⟩ := join_inOrder inOrder (rows.map Row.cells)
  rw [← written] at room
  obtain ⟨rest, same⟩ := echo_joins allowed handed sound room flushes
  rw [written, used] at same
  have ran : run = _ := same
  refine ⟨?_, ?_, cellCount_isUsed_iff all _, NoneMasked.edit⟩
  · rw [ran, List.length_map]
    rfl
  · rw [ran]
    exact Output.extended_bytes _ _

/-- A second overwrite for the last cell of a row masks nothing. -/
theorem echo_uses_repeated_last :
    let input : Bytes := [97, 44, 98, 10, 49, 44, 50, 10, 51, 44, 52]
    let patches := Patch.Stream.ofList [⟨1, 1, [120]⟩, ⟨1, 1, [121]⟩, ⟨2, 0, [122]⟩]
    let run := echo (Source.ofBytes input [.atMost 3]) {} patches false {}
    run.result = .ok { rows := 3, overwritten := 2 } ∧
      run.out.bytes = [97, 44, 98, 10, 49, 44, 34, 120, 34, 10, 34, 122, 34, 44, 52, 10] := by
  intro input patches run
  have accepts : delivered (Source.ofBytes input [.atMost 3]) {} =
      .ok [[⟨[97], false⟩, ⟨[98], false⟩], [⟨[49], false⟩, ⟨[50], false⟩],
        [⟨[51], false⟩, ⟨[52], false⟩]] := by decide +kernel
  obtain ⟨result, bytes, -⟩ := echo_uses_unmasked input [.atMost 3] {} _ accepts patches
    (by decide) (fun number detail fault => by cases fault) {} false
    (fun room limit => by cases limit) rfl
  exact ⟨result, bytes⟩

/-- A second overwrite for the first cell of a row masks the one for the second cell. -/
theorem echo_masks_next_cell :
    let input : Bytes := [97, 44, 98, 10, 49, 44, 50, 10]
    let rs : List Record :=
      [[⟨[97], false⟩, ⟨[98], false⟩], [⟨[49], false⟩, ⟨[50], false⟩]]
    let all : List Overwrite := [⟨1, 0, [65]⟩, ⟨1, 0, [66]⟩, ⟨1, 1, [67]⟩]
    let run := echo (Source.ofBytes input) {} (Patch.Stream.ofList all) false {}
    delivered (Source.ofBytes input) {} = .ok rs ∧ InOrder all ∧
      edit all rs =
        [[⟨[97], false⟩, ⟨[98], false⟩], [⟨[65], true⟩, ⟨[67], true⟩]] ∧
      run.result = .ok { rows := 2, overwritten := 1 } ∧
      run.out.bytes = [97, 44, 98, 10, 34, 65, 34, 44, 50, 10] := by
  decide +kernel

end Tabular.Echo
