import Tabular.Proofs.Csv.Lockstep
import Tabular.Proofs.Csv.WholeInput
import Tabular.Proofs.Echo.MergeJoin
import Tabular.Proofs.Patch.Repeats

/-!
A whole echo. Row by row it writes the join of the table with the overwrites. If no two of these are
for the same cell and they come in order, that is the table that comes of applying all of them at once.
-/
namespace Tabular.Echo

open Csv Patch

namespace Merge

theorem feed_merges (rows : List Row) {m : Merge} {queue : List Overwrite} (atRow : AtRow m queue)
    (room : m.writer.out.HasRoom
      ((joinRows m.stats.rows queue (rows.map Row.cells)).written.flatMap Encoding.row)) :
    ∃ patches pending, feed rowHandler rows m = (.ok (),
      { m.wroteRows (joinRows m.stats.rows queue (rows.map Row.cells)).written
          (joinRows m.stats.rows queue (rows.map Row.cells)).used with patches, pending }) := by
  induction rows generalizing m queue with
  | nil =>
    have nothing : m.wroteRows [] 0 = m := by
      unfold wroteRows
      simp
    refine ⟨m.patches, m.pending, ?_⟩
    rw [feed, List.map_nil, joinRows, nothing]
  | cons row rest ih =>
    rw [List.map_cons, joinRows, List.flatMap_cons] at room
    rw [List.map_cons, joinRows]
    have merged := row_merges atRow row.cells
    generalize joinRow m.stats.rows queue row.cells = first at room merged ⊢
    obtain ⟨patches, pending, written, next⟩ := merged room.left
    have more : ({ m.wroteRows [first.written] first.used with patches, pending } :
          Merge).writer.out.HasRoom
        ((joinRows (m.stats.rows + 1) first.left (rest.map Row.cells)).written.flatMap
          Encoding.row) := by
      show (m.writer.out.extended ([first.written].flatMap Encoding.row)).HasRoom _
      rw [List.flatMap_singleton]
      exact room.right
    obtain ⟨patches', pending', others⟩ := ih next more
    refine ⟨patches', pending', ?_⟩
    have handled : rowHandler row m =
        (.ok (), { m.wroteRows [first.written] first.used with patches, pending }) := written
    rw [feed, handled]
    dsimp only
    rw [others, ← wroteRows_wroteRows]
    rfl

end Merge

/-! ## From the source to the output -/

namespace Merge

def unbegun (out : Output) (patches : Patch.Stream) : Merge :=
  { writer := { out }, patches, pending := none }

@[simp] theorem unbegun_patches (out : Output) (patches : Patch.Stream) :
    (unbegun out patches).patches = patches := rfl

def mark (withMark : Bool) (m : Merge) : Except Error Unit × Merge :=
  let (outcome, writer) := if withMark then m.writer.put byteOrderMark else (.ok (), m.writer)
  (outcome, { m with writer })

/-- All that an echo does with its output and its overwrites when it is handed some rows. -/
def echoRows (withMark : Bool) (rows : List Row) (m : Merge) : Except Error Unit × Merge :=
  andThen m.fetch fun _ m => andThen (m.mark withMark) fun _ m => feed rowHandler rows m

def concluded (ending : Except Error Unit) (m : Merge) : Run where
  result := ending *> m.writer.flush *> .ok m.stats
  out := m.writer.out
  patches := m.patches

def answer (ending : Except Error Unit) : Except Error Unit × Merge → Run
  | (.error error, m) => ⟨.error error, m.writer.out, m.patches⟩
  | (.ok (), m) => m.concluded ending

end Merge

theorem copy_of_handsOver {p : Parser} {rows : List Row} {ending : Except Error Unit}
    (run : p.HandsOver rows ending) (m : Merge) :
    copy p m = Merge.answer ending (feed rowHandler rows m) := by
  obtain ⟨q, drained⟩ := run Merge rowHandler m
  rcases ending with refused | _
  · rw [copy, drained]
    rcases feed rowHandler rows m with ⟨error | _, m⟩ <;> rfl
  · rw [accepted_all] at drained
    rw [copy, drained]
    rcases feed rowHandler rows m with ⟨error | _, m⟩
    · rfl
    · dsimp only [Merge.answer, Merge.concluded]
      rcases m.writer.flush with error | _ <;> rfl

/-- An echo fetches, opens the writer and takes the rows that its parse hands over. -/
theorem echo_of_handsOver {source : Source} {options : Options} (allowed : options.Allowed)
    {rows : List Row} {ending : Except Error Unit}
    (run : (Parser.initial source options).HandsOver rows ending) (out : Output)
    (patches : Patch.Stream) (withMark : Bool) :
    echo source out patches withMark options =
      Merge.answer ending ((Merge.unbegun out patches).echoRows withMark rows) := by
  rw [echo, Parser.new_eq_initial source allowed, Merge.echoRows, Merge.fetch,
    Merge.unbegun_patches]
  dsimp only
  rcases patches.fetch with ⟨error | pending, rest⟩
  · rfl
  · have opening : Writer.new out withMark =
        if withMark then ({ out } : Writer).put byteOrderMark else (.ok (), { out }) := rfl
    dsimp only [andThen, Merge.mark, Merge.unbegun]
    rw [← opening]
    rcases Writer.new out withMark with ⟨error | _, writer⟩
    · rfl
    · exact copy_of_handsOver run _

/-- No fetch of the overwrites fails as long as there are any, nor the one that finds none. -/
def Sound (patches : Patch.Stream) : Prop :=
  ∀ number detail, patches.fault = some (number, detail) →
    number ≤ patches.fetches ∨ patches.fetches + patches.remaining.length + 1 < number

theorem fetch_first {patches : Patch.Stream} (sound : Sound patches) (writer : Writer) :
    ∃ pending rest, patches.fetch = (.ok pending, rest) ∧
      Merge.Holds { writer, patches := rest, pending } patches.remaining := by
  have fetched : patches.fetch = (.ok patches.remaining.head?,
      { patches with fetches := patches.fetches + 1, remaining := patches.remaining.tail }) := by
    apply Merge.stream_fetch
    intro number detail fault
    have := sound number detail fault
    omega
  refine ⟨_, _, fetched, ?_, ?_, ?_⟩
  · cases patches.remaining <;> rfl
  · intro none
    exact List.head?_eq_none_iff.mp none
  · intro number detail fault
    have := sound number detail fault
    show number ≤ patches.fetches + 1 ∨ patches.fetches + 1 + patches.remaining.length < number
    omega

theorem Merge.mark_writes {m : Merge} {withMark : Bool}
    (room : m.writer.out.HasRoom (if withMark then byteOrderMark else [])) :
    m.mark withMark = (.ok (), { m with
      writer.out := m.writer.out.extended (if withMark then byteOrderMark else []) }) := by
  unfold mark
  cases withMark with
  | false => simp
  | true =>
    rw [if_pos rfl] at room ⊢
    rw [Writer.put_of_room room]
    rfl

theorem flush_of_sound {out : Output} (flushes : out.flushFailure = none) (text : Bytes) :
    (out.extended text).flush = .ok () := by
  rw [Output.flush, Output.extended, flushes]

theorem Merge.echoRows_joins {patches : Patch.Stream} (sound : Sound patches) (rows : List Row)
    {out : Output} {withMark : Bool}
    (room : out.HasRoom (Encoding.table withMark
      (join patches.remaining (rows.map Row.cells)).written)) :
    ∃ m, (unbegun out patches).echoRows withMark rows = (.ok (), m) ∧
      m.writer.out = out.extended (Encoding.table withMark
        (join patches.remaining (rows.map Row.cells)).written) ∧
      m.stats = {
        rows := rows.length
        overwritten := (join patches.remaining (rows.map Row.cells)).used } := by
  obtain ⟨pending, rest, fetched, holds⟩ := fetch_first sound
    { out := out.extended (if withMark then byteOrderMark else []) }
  have fetching : (unbegun out patches).fetch =
      (.ok (), { unbegun out patches with patches := rest, pending }) := by
    rw [fetch, unbegun_patches, fetched]
  have atRow : AtRow {
      writer := { out := out.extended (if withMark then byteOrderMark else []) }
      patches := rest
      pending } patches.remaining := ⟨holds, ⟨rfl, rfl⟩, rfl, rfl⟩
  obtain ⟨patches', pending', fed⟩ := feed_merges rows atRow room.right
  rw [echoRows, fetching, andThen, mark_writes room.left]
  refine ⟨_, fed, Output.extended_extended _ _ _, ?_⟩
  simp [wroteRows, join]

/-- What an echo of some rows with sound overwrites comes to. How the parse ends is how it ends. -/
theorem echo_joins {source : Source} {options : Options} (allowed : options.Allowed)
    {rows : List Row} {ending : Except Error Unit}
    (run : (Parser.initial source options).HandsOver rows ending)
    {patches : Patch.Stream} (sound : Sound patches) {out : Output} {withMark : Bool}
    (room : out.HasRoom (Encoding.table withMark
      (join patches.remaining (rows.map Row.cells)).written))
    (flushes : out.flushFailure = none) :
    ∃ rest, echo source out patches withMark options = {
      result := ending *> .ok {
        rows := rows.length
        overwritten := (join patches.remaining (rows.map Row.cells)).used }
      out := out.extended (Encoding.table withMark
        (join patches.remaining (rows.map Row.cells)).written)
      patches := rest } := by
  obtain ⟨m, wrote, same, stats⟩ := Merge.echoRows_joins sound rows room
  refine ⟨m.patches, ?_⟩
  rw [echo_of_handsOver allowed run, wrote, Merge.answer, Merge.concluded, Writer.flush, same, stats,
    flush_of_sound flushes]
  cases ending <;> rfl

/-- An echo writes the records of its input with the overwrites in place, and counts the records
and the overwrites for cells of the data that are there. The other overwrites change nothing. -/
theorem echo_writes_edited_table (input : Bytes) (reads : List ReadEvent) (options : Options)
    (allowed : options.Allowed) (steady : ∀ event ∈ reads, event.isSteady = true)
    (single : SingleMark input) (fits : ∀ r ∈ reference options.delimiter input, options.Fits r)
    (patches : Patch.Stream) (ascending : Ascending patches.remaining) (sound : Sound patches)
    (out : Output) (withMark : Bool)
    (room : out.HasRoom (Encoding.table withMark
      (edit patches.remaining (reference options.delimiter input))))
    (flushes : out.flushFailure = none) :
    let rs := reference options.delimiter input
    let run := echo (Source.ofBytes input reads) out patches withMark options
    run.result = .ok {
        rows := rs.length
        overwritten := patches.remaining.countP (Overwrite.isIn rs) } ∧
      run.out.bytes = out.bytes ++ Encoding.table withMark (edit patches.remaining rs) ∧
      countEdited patches.remaining rs = patches.remaining.countP (Overwrite.isIn rs) ∧
      edit patches.remaining rs = edit (patches.remaining.filter (Overwrite.isIn rs)) rs := by
  intro rs run
  have counted := countEdited_eq_countP ascending rs
  obtain ⟨rows, deliver, drained⟩ :=
    Parser.initial_reads (Source.ofBytes input reads) steady allowed single fits
  have handed : (Parser.initial (Source.ofBytes input reads) options).HandsOver rows (.ok ()) := by
    intro β handler s
    obtain ⟨q, ran, -⟩ := drained β handler s
    exact ⟨q, by simp [ran]⟩
  obtain ⟨written, used⟩ := join_ascending ascending rs
  have cells : rows.map Row.cells = rs := deliver.cells
  have length : rows.length = rs.length := by rw [← cells, List.length_map]
  obtain ⟨rest, same⟩ := echo_joins allowed handed sound (by rw [cells, written]; exact room) flushes
  rw [cells, written, used, length] at same
  have ran : run = _ := same
  refine ⟨?_, ?_, counted, (edit_effective _ rs).symm⟩
  · rw [ran, ← counted]
    rfl
  · rw [ran]
    exact Output.extended_bytes _ _

/-- Of four overwrites for the rows `a,b`, `1,2` and `3,"x"`, one for the header, one behind the
end of a row and one behind the last row change nothing. -/
theorem echo_writes_one_overwrite :
    let input : Bytes := [97, 44, 98, 10, 49, 44, 50, 13, 10, 51, 44, 34, 120, 34]
    let patches : Patch.Stream := {
      remaining := [⟨0, 0, [90]⟩, ⟨1, 2, [90]⟩, ⟨2, 0, [44]⟩, ⟨7, 0, [90]⟩]
      fault := some (6, "late") }
    let run := echo (Source.ofBytes input [.atMost 3, .interrupted]) { room := some 20 } patches true
      { readChunk := 2 }
    run.result = .ok { rows := 3, overwritten := 1 } ∧
      run.out.bytes = [0xEF, 0xBB, 0xBF, 97, 44, 98, 10, 49, 44, 50, 10, 34, 44, 34, 44, 34, 120, 34,
        10] := by
  intro input patches run
  have found : reference Byte.comma input =
      [[⟨[97], false⟩, ⟨[98], false⟩], [⟨[49], false⟩, ⟨[50], false⟩],
        [⟨[51], false⟩, ⟨[120], true⟩]] := by decide +kernel
  have sound : Sound patches := by
    intro number detail fault
    cases fault
    exact Or.inr (by decide)
  have echoed := echo_writes_edited_table input [.atMost 3, .interrupted] { readChunk := 2 }
    ⟨rfl, by decide, by decide⟩ (by decide) (by decide) (by rw [found]; decide) patches (by decide)
    sound { room := some 20 } true
    (by
      rw [found]
      intro room limit
      cases limit
      decide)
    rfl
  rw [found] at echoed
  exact ⟨echoed.1, echoed.2.1⟩

end Tabular.Echo
