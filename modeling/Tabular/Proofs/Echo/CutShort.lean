import Tabular.Proofs.Csv.CutInput
import Tabular.Proofs.Csv.CutReads
import Tabular.Proofs.Csv.RowLimit
import Tabular.Proofs.Echo.EditedTable
import Tabular.Proofs.Echo.MergeLockstep

/-!
An echo that fails. Whichever read, fetch or write it is that fails, what is written by then is the
front of what would be written without the failure. A record that is refused leaves what is written
for the records in front of it.
-/
namespace Tabular

open Csv
open Writing (bytes Alike)

namespace Csv

theorem not_refuses_of_new {source : Source} {options : Options} {error : Error}
    (unmade : Parser.new source options = .error error) (number : Nat) :
    ¬ options.Refuses number error := by
  unfold Parser.new at unmade
  dsimp only at unmade
  intro refuses
  split at unmade
  · cases unmade
    cases refuses
  · split at unmade
    · cases unmade
      cases refuses
    · cases unmade

theorem Options.Refuses.number_eq {o : Options} {first second : Nat} {error : Error}
    (refuses : o.Refuses first error) (refuses' : o.Refuses second error) : first = second := by
  cases refuses <;> cases refuses' <;> rfl

theorem Options.Refuses.not_outside {o : Options} {number : Nat} {error : Error}
    (refuses : o.Refuses number error) : ¬ error.Outside := by
  intro outside
  cases refuses <;> cases outside

theorem feed_append {β : Type} (handler : RowHandler β) (rows more : List Row) (s : β) :
    feed handler (rows ++ more) s = andThen (feed handler rows s) fun _ => feed handler more := by
  induction rows generalizing s with
  | nil => rfl
  | cons row rest ih =>
    rw [List.cons_append, feed, feed]
    rcases handler row s with ⟨error | _, t⟩
    · rfl
    · exact ih t

end Csv

namespace Echo

open Patch

namespace Merge

theorem mark_lockstep (withMark : Bool) : Lockstep fun m : Merge => m.mark withMark := by
  cases withMark with
  | false => exact .pure ()
  | true => exact writing_lockstep (Writer.put_lockstep byteOrderMark)

theorem echoRows_lockstep (withMark : Bool) (rows : List Row) :
    Lockstep fun m : Merge => m.echoRows withMark rows :=
  fetch_lockstep.andThen fun _ => (mark_lockstep withMark).andThen fun _ => feed_lockstep rows

theorem unbegun_alike {out out' : Output} {patches patches' : Patch.Stream}
    (writing : out.OutlastedBy out') (fetching : patches.OutlastedBy patches') :
    Alike (unbegun out patches) (unbegun out' patches') :=
  ⟨out', patches', writing, fetching, rfl⟩

theorem echoRows_append (m : Merge) (withMark : Bool) (rows more : List Row) :
    m.echoRows withMark (rows ++ more) =
      andThen (m.echoRows withMark rows) fun _ => feed rowHandler more := by
  unfold echoRows
  rcases m.fetch with ⟨error | _, a⟩
  · rfl
  · dsimp only [andThen]
    rcases a.mark withMark with ⟨error | _, b⟩
    · rfl
    · exact feed_append rowHandler rows more b

theorem echoRows_front {m m' : Merge} (alike : Alike m m') (withMark : Bool)
    {rows rows' : List Row} (front : rows <+: rows') :
    bytes (m.echoRows withMark rows).2 <+: bytes (m'.echoRows withMark rows').2 := by
  obtain ⟨more, rfl⟩ := front
  have abreast := (echoRows_lockstep withMark rows).abreast alike
  rw [echoRows_append]
  refine abreast.front.trans ?_
  rcases m'.echoRows withMark rows with ⟨error | _, n⟩
  · exact List.prefix_rfl
  · exact (feed_lockstep more).grows n

@[simp] theorem answer_out (ending : Except Error Unit) (found : Except Error Unit × Merge) :
    (answer ending found).out = found.2.writer.out := by
  rcases found with ⟨error | _, m⟩ <;> rfl

/-- An echo that fails has met a failure outside, or its rows are written and the parse has
failed. -/
theorem answer_failed {ending : Except Error Unit} {found : Except Error Unit × Merge}
    {error : Error} (outside : ∀ error, found.1 = .error error → error.Outside)
    (failed : (answer ending found).result = .error error) :
    error.Outside ∨ found.1 = .ok () ∧ ending = .error error := by
  rcases found with ⟨error | _, m⟩
  · cases failed
    exact Or.inl (outside _ rfl)
  · rcases ending with refused | _
    · cases failed
      exact Or.inr ⟨rfl, rfl⟩
    · left
      rw [answer, concluded, Writer.flush, Output.flush] at failed
      cases flushes : m.writer.out.flushFailure with
      | none =>
        rw [flushes] at failed
        cases failed
      | some detail =>
        rw [flushes] at failed
        cases failed
        exact .io detail

end Merge

theorem echo_of_not_allowed {options : Options} (unusable : ¬ options.Allowed) (source : Source)
    (out : Output) (patches : Patch.Stream) (withMark : Bool) :
    ∃ error, Parser.new source options = .error error ∧
      echo source out patches withMark options = ⟨.error error, out, patches⟩ := by
  cases made : Parser.new source options with
  | error error => exact ⟨error, rfl, by rw [echo, made]⟩
  | ok p => exact absurd (Parser.new_inv made).1 unusable

/-! ## Failures outside -/

/-- Of two echoes of the same input with the same overwrites, one that is outlasted in its reads, its
fetches and its writes has written the front of what the other one has. -/
theorem echo_front {input : Bytes} {reads reads' : List ReadEvent} {options : Options}
    {patches patches' : Patch.Stream} {out out' : Output}
    (reading : ReadEvent.OutlastedBy reads reads') (fetching : patches.OutlastedBy patches')
    (writing : out.OutlastedBy out') (withMark : Bool) :
    (echo (Source.ofBytes input reads) out patches withMark options).out.bytes <+:
      (echo (Source.ofBytes input reads') out' patches' withMark options).out.bytes := by
  by_cases allowed : options.Allowed
  · obtain ⟨rows, ending, rows', ending', run, run', same⟩ :=
      Parser.handsOver_outlasted (Parser.initial (Source.ofBytes input reads) options) rfl reading
    have front : rows <+: rows' := by
      rcases same with ⟨rfl, -⟩ | ⟨front, -⟩
      · exact List.prefix_rfl
      · exact front
    have run' : (Parser.initial (Source.ofBytes input reads') options).HandsOver rows' ending' :=
      run'
    rw [echo_of_handsOver allowed run, echo_of_handsOver allowed run', Merge.answer_out,
      Merge.answer_out]
    exact Merge.echoRows_front (Merge.unbegun_alike writing fetching) withMark front
  · obtain ⟨error, -, same⟩ :=
      echo_of_not_allowed allowed (Source.ofBytes input reads) out patches withMark
    obtain ⟨error', -, same'⟩ :=
      echo_of_not_allowed allowed (Source.ofBytes input reads') out' patches' withMark
    rw [same, same']
    exact writing.bytes_eq ▸ List.prefix_rfl

/-! ## Refused records -/

theorem feed_congr {rows rows' : List Row} (same : rows.map Row.cells = rows'.map Row.cells)
    (m : Merge) : feed rowHandler rows m = feed rowHandler rows' m := by
  induction rows generalizing rows' m with
  | nil => rw [List.map_eq_nil_iff.mp same.symm]
  | cons row rest ih =>
    obtain ⟨row', rest', rfl, cells, others⟩ := List.map_eq_cons_iff.mp same.symm
    rw [feed, feed, rowHandler, rowHandler, cells]
    rcases m.row row.cells with ⟨error | _, n⟩
    · rfl
    · exact ih others.symm n

theorem Merge.echoRows_congr {rows rows' : List Row}
    (same : rows.map Row.cells = rows'.map Row.cells) (m : Merge) (withMark : Bool) :
    m.echoRows withMark rows = m.echoRows withMark rows' := by
  unfold echoRows
  simp only [feed_congr same]

theorem Merge.bytes_of_echoRows {out : Output} {patches : Patch.Stream} {withMark : Bool}
    {rows : List Row} {m : Merge}
    (wrote : (unbegun out patches).echoRows withMark rows = (.ok (), m)) :
    m.writer.out.bytes = out.bytes ++ Encoding.table withMark
      (join patches.remaining (rows.map Row.cells)).written := by
  -- An output without a limit and a stream without a fault outlast what there is.
  have writing : out.OutlastedBy { out with room := none } :=
    ⟨rfl, by rintro most limit; cases limit⟩
  have fetching : patches.OutlastedBy { patches with fault := none } :=
    ⟨rfl, rfl, by rintro late detail fault; cases fault⟩
  have sound : Sound { patches with fault := none } := by
    rintro number detail fault
    cases fault
  have room : ({ out with room := none } : Output).HasRoom (Encoding.table withMark
      (join patches.remaining (rows.map Row.cells)).written) := by
    rintro most limit
    cases limit
  obtain ⟨n, wrote', same, -⟩ := echoRows_joins sound rows room
  have abreast := (echoRows_lockstep withMark rows).abreast (unbegun_alike writing fetching)
  rw [wrote, wrote'] at abreast
  cases abreast with
  | along _ alike =>
    have bytes : m.writer.out.bytes = n.writer.out.bytes := Writing.bytes_eq alike
    rw [bytes, same, Output.extended_bytes]
    rfl

section

variable {input : Bytes} {reads : List ReadEvent} {options : Options} {patches : Patch.Stream}
  {out : Output} {withMark : Bool} {number : Nat} {error : Error}

theorem allowed_of_refused (refuses : options.Refuses number error)
    (failed : (echo (Source.ofBytes input reads) out patches withMark options).result =
      .error error) : options.Allowed := by
  by_contra unusable
  obtain ⟨error', unmade, same⟩ :=
    echo_of_not_allowed unusable (Source.ofBytes input reads) out patches withMark
  rw [same] at failed
  cases failed
  exact not_refuses_of_new unmade number refuses

theorem rows_of_refused (allowed : options.Allowed) (single : SingleMark input)
    (steady : ∀ event ∈ reads, event.isSteady = true) (refuses : options.Refuses number error)
    (failed : (echo (Source.ofBytes input reads) out patches withMark options).result =
      .error error) :
    number ≤ (reference options.delimiter input).length ∧
      (∀ r ∈ (reference options.delimiter input).take (number - 1), options.Fits r) ∧
      ∃ rows m, rows.map Row.cells = (reference options.delimiter input).take (number - 1) ∧
        (Merge.unbegun out patches).echoRows withMark rows = (.ok (), m) ∧
        (echo (Source.ofBytes input reads) out patches withMark options).out = m.writer.out := by
  obtain ⟨rows, taken, ending, takes, deliver, drained⟩ :=
    Parser.initial_takes (Source.ofBytes input reads) steady allowed single
  have handed := Parser.handsOver_of_run drained
  have outside : ∀ error, ((Merge.unbegun out patches).echoRows withMark rows).1 = .error error →
      error.Outside := fun _ => (Merge.echoRows_lockstep withMark rows).outside
  rw [echo_of_handsOver allowed handed] at failed ⊢
  obtain ⟨wrote, rfl⟩ := (Merge.answer_failed outside failed).resolve_left refuses.not_outside
  obtain ⟨_, same, refuses', front⟩ := takes.stops.resolve_left (by rintro ⟨ok, -⟩; cases ok)
  cases same
  have place : number = 1 + taken.length := refuses.number_eq refuses'
  have less : taken.length < (reference options.delimiter input).length := takes.length_taken_lt
  have cells : taken = (reference options.delimiter input).take (number - 1) := by
    rw [place, Nat.add_sub_cancel_left]
    exact front
  rw [← cells]
  refine ⟨by omega, takes.fits_of_error, rows, _, deliver.cells, Prod.ext wrote rfl, ?_⟩
  exact Merge.answer_out _ _

/-- An echo that stops at a record writes what it writes if its input is cut off in front of it. -/
theorem echo_refused (single : SingleMark input) (steady : ∀ event ∈ reads, event.isSteady = true)
    (refuses : options.Refuses number error)
    (failed : (echo (Source.ofBytes input reads) out patches withMark options).result =
      .error error) :
    let run := echo (Source.ofBytes input reads) out patches withMark options
    number ≤ (reference options.delimiter input).length ∧
      run.out.bytes = out.bytes ++ Encoding.table withMark
        (join patches.remaining ((reference options.delimiter input).take (number - 1))).written ∧
      ∀ reads', (∀ event ∈ reads', event.isSteady = true) →
        run.out.bytes = (echo (Source.ofBytes (cutBefore options.delimiter number input) reads') out
          patches withMark options).out.bytes := by
  have allowed := allowed_of_refused refuses failed
  obtain ⟨found, fits, rows, m, cells, wrote, came⟩ :=
    rows_of_refused allowed single steady refuses failed
  intro run
  have bytes := Merge.bytes_of_echoRows wrote
  rw [came, ← cells]
  refine ⟨found, bytes, fun reads' steady' => ?_⟩
  -- The records of the cut input are all within the limits, so its parse hands over all of them.
  have last := reference_cutBefore options.delimiter number input
  obtain ⟨rows', deliver, handed⟩ := Parser.initial_handsOver
    (Source.ofBytes (cutBefore options.delimiter number input) reads') steady' allowed
    (single.take _) (last ▸ fits)
  have same : rows.map Row.cells = rows'.map Row.cells := by
    rw [cells, deliver.cells, ← last]
    rfl
  simp [echo_of_handsOver allowed handed, ← Merge.echoRows_congr same, wrote]

end

/-- When a read, a fetch or a write of an echo fails, the bytes written are the front of those that
are written where it does not fail. When a record is refused they are those written for the records
in front of it, as if the input ended there. -/
theorem failing_echo_writes_front (input : Bytes) (reads : List ReadEvent) (options : Options)
    (withMark : Bool) (patches : Patch.Stream) (out : Output) :
    let run := echo (Source.ofBytes input reads) out patches withMark options
    (∀ reads' patches' out', ReadEvent.OutlastedBy reads reads' → patches.OutlastedBy patches' →
      out.OutlastedBy out' → run.out.bytes <+:
        (echo (Source.ofBytes input reads') out' patches' withMark options).out.bytes) ∧
    (SingleMark input → (∀ event ∈ reads, event.isSteady = true) →
      ∀ number error, options.Refuses number error → run.result = .error error →
        number ≤ (reference options.delimiter input).length ∧
        run.out.bytes = out.bytes ++ Encoding.table withMark
          (join patches.remaining ((reference options.delimiter input).take (number - 1))).written ∧
        ∀ reads', (∀ event ∈ reads', event.isSteady = true) →
          run.out.bytes = (echo (Source.ofBytes (cutBefore options.delimiter number input) reads')
            out patches withMark options).out.bytes) :=
  ⟨fun _ _ _ reading fetching writing => echo_front reading fetching writing withMark,
    fun single steady _ _ refuses failed => echo_refused single steady refuses failed⟩

/-- Of `a,b`, `1,2` and `3,4,5` the last is too wide. In the second a cell is overwritten, unless the
fetch behind its overwrite fails. -/
theorem failing_echo_writes_front_of_rows :
    let input : Bytes := [97, 44, 98, 10, 49, 44, 50, 10, 51, 44, 52, 44, 53, 10]
    let options : Options := { maxColumns := 2 }
    let patches : Patch.Stream := { remaining := [⟨1, 1, [120]⟩] }
    let run := echo (Source.ofBytes input [.atMost 10]) {} patches true options
    let late := echo (Source.ofBytes input [.atMost 10, .failed "gone"]) { room := some 9 }
      { patches with fault := some (2, "late") } true options
    run.result = .error (.tooManyColumns 3 2) ∧
      run.out.bytes = [0xEF, 0xBB, 0xBF, 97, 44, 98, 10, 49, 44, 34, 120, 34, 10] ∧
      late.out.bytes = [0xEF, 0xBB, 0xBF, 97, 44, 98, 10, 49] ∧ late.out.bytes <+: run.out.bytes ∧
      run.out.bytes = (echo (Source.ofBytes [97, 44, 98, 10, 49, 44, 50, 10] []) {} patches true
        options).out.bytes := by
  intro input options patches run late
  have refused : run.result = .error (.tooManyColumns 3 2) := by decide +kernel
  have cut : cutBefore options.delimiter 3 input = [97, 44, 98, 10, 49, 44, 50, 10] := by
    decide +kernel
  have front := (failing_echo_writes_front input [.atMost 10, .failed "gone"] options true
    { patches with fault := some (2, "late") } { room := some 9 }).1 [.atMost 10] patches {}
    (.next _ (.failed "gone" [] [])) ⟨rfl, rfl, by rintro number detail fault; cases fault⟩
    ⟨rfl, by rintro most limit; cases limit⟩
  obtain ⟨-, -, same⟩ := (failing_echo_writes_front input [.atMost 10] options true patches {}).2
    (by decide) (by decide) 3 _ .columns refused
  rw [cut] at same
  exact ⟨refused, by decide +kernel, by decide +kernel, front, same [] (by decide)⟩

end Echo

end Tabular
