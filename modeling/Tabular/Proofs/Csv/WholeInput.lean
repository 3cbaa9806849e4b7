import Tabular.Proofs.Csv.Delivery

/-!
A parse of a whole input. However its bytes arrive, the rows that are handed over are the records
of the input in order.
-/
namespace Tabular.Csv

open Grammar

/-- No further byte-order mark stands behind the one at the front, which may be absent, and the line
breaks in front of the first record. A single mark behind leading line breaks is thus excluded as
well. The tokenizer would take such a mark for one, or not, depending on how the input arrives. -/
def SingleMark (input : Bytes) : Prop :=
  startsWithMark ((withoutMark input).dropWhile Byte.isLineBreak) = false

instance (input : Bytes) : Decidable (SingleMark input) :=
  inferInstanceAs (Decidable (_ = false))

theorem withoutMark_of_enough {part : Bytes} (enough : byteOrderMark.length ≤ part.length)
    (later : Bytes) : withoutMark (part ++ later) = withoutMark part ++ later := by
  unfold withoutMark
  rw [Parser.startsWithMark_of_enough enough]
  split
  · exact List.drop_append_of_le_length enough
  · rfl

theorem startsWithMark_of_short {text : Bytes} (short : text.length < byteOrderMark.length) :
    startsWithMark text = false := by
  cases found : startsWithMark text with
  | false => rfl
  | true =>
    obtain ⟨rest, same⟩ := (startsWithMark_iff text).mp found
    rw [same] at short
    exact absurd short (Nat.not_lt_of_le (Nat.le_add_left _ _))

theorem SingleMark.take {content : Bytes} (single : SingleMark content) (n : Nat) :
    SingleMark (content.take n) := by
  unfold SingleMark at single ⊢
  by_cases enough : byteOrderMark.length ≤ (content.take n).length
  · rw [← List.take_append_drop n content, withoutMark_of_enough enough, List.dropWhile_append]
      at single
    split at single
    · rename_i empty
      rw [List.isEmpty_iff.mp empty]
      rfl
    · exact Parser.startsWithMark_append single
  · have shorter : (withoutMark (content.take n)).length ≤ (content.take n).length := by
      unfold withoutMark
      split
      · exact List.length_drop ▸ Nat.sub_le _ _
      · exact Nat.le_refl _
    have behind := (List.dropWhile_suffix Byte.isLineBreak
      (l := withoutMark (content.take n))).length_le
    apply startsWithMark_of_short
    omega

theorem withoutMark_dropLast {input : Bytes} (some : withoutMark input ≠ []) :
    withoutMark input.dropLast = (withoutMark input).dropLast := by
  unfold withoutMark at some ⊢
  cases marked : startsWithMark input with
  | true =>
    obtain ⟨rest, rfl⟩ := (startsWithMark_iff input).mp marked
    have left : rest ≠ [] := by
      rintro rfl
      exact some rfl
    have marked' : startsWithMark (byteOrderMark ++ rest.dropLast) = true :=
      (startsWithMark_iff _).mpr ⟨_, rfl⟩
    rw [List.dropLast_append_of_ne_nil left, if_pos marked', if_pos rfl, List.drop_left,
      List.drop_left]
  | false =>
    rw [if_neg (by simp [marked])] at some
    rw [← List.dropLast_append_getLast some] at marked
    have unmarked := Parser.startsWithMark_append marked
    rw [if_neg (by simp [unmarked]), if_neg Bool.false_ne_true]

theorem Options.Allowed.chunk {options : Options} (allowed : options.Allowed) :
    0 < options.readChunk := by
  have usable := allowed.usable
  simp only [Options.isUsable, Bool.and_eq_true, bne_iff_ne] at usable
  omega

theorem Options.Allowed.memory {options : Options} (allowed : options.Allowed) :
    0 < options.bufferSize := by
  have usable := allowed.usable
  simp only [Options.isUsable, Bool.and_eq_true, bne_iff_ne] at usable
  omega

namespace Parser

theorem initial_untouched (source : Source) (options : Options) :
    Untouched (initial source options) where
  toLayout := layout_initial source options
  opened opened := by cases opened
  closed _ := rfl
  behindCell _ some := by cases some
  betweenRecords _ _ := rfl
  started _ := rfl
  unchecked := rfl
  rows := rfl
  none := rfl
  front := rfl

theorem initial_supplied {source : Source} {options : Options} (sound : source.Sound)
    (allowed : options.Allowed) : Supplied (initial source options) where
  ended ended := by cases ended
  sound := sound
  chunk := allowed.chunk
  room := Nat.le_max_right _ _
  bufferSize := rfl

theorem initial_awaits (source : Source) (options : Options) {n : Nat}
    (single : SingleMark (source.upTo n)) :
    Awaits (initial source options) n (withoutMark (source.upTo n)) :=
  .fresh (initial_untouched source options) rfl single

theorem initial_awaiting (source : Source) {options : Options} (steady : source.Steady)
    (allowed : options.Allowed) (single : SingleMark source.rest) :
    Awaiting (initial source options) (withoutMark source.rest) where
  awaits := by
    rw [← source.upTo_extent] at single ⊢
    exact initial_awaits source options single
  feeding := ⟨initial_supplied steady.sound allowed, steady⟩

@[simp] theorem initial_ahead (source : Source) (options : Options) :
    (initial source options).ahead (withoutMark source.rest) =
      reference options.delimiter source.rest :=
  ahead_of_noRecord rfl _

/-- A run over a source hands over the records of its input up to the first that is over a limit. -/
theorem initial_takes (source : Source) {options : Options} (steady : source.Steady)
    (allowed : options.Allowed) (single : SingleMark source.rest) :
    ∃ rows taken ending,
      options.Takes (EndsInText (reference options.delimiter) source.rest) 1
        (reference options.delimiter source.rest) taken ending ∧
      Deliver 0 taken rows ∧
      ∀ (β : Type) (handler : RowHandler β) (s : β), ∃ q,
        (initial source options).drain handler s =
            ((feed handler rows s).1 *> ending, q, (feed handler rows s).2) ∧
          ((feed handler rows s).1 *> ending = .ok () → q.status = .finished) := by
  obtain ⟨rows, taken, ending, takes, deliver, run⟩ := drain_takes (initial source options) _ rfl
    (initial_awaiting source steady allowed single) allowed.memory rfl
  rw [initial_ahead] at takes
  refine ⟨rows, taken, ending, takes.of_iff fun some => ?_, deliver, run⟩
  have text : withoutMark source.rest ≠ [] := by
    intro none
    rw [reference, none, records_nil] at some
    exact some rfl
  rw [EndsInText, EndsInText, reference, reference, withoutMark_dropLast text,
    ahead_of_noRecord rfl, ahead_of_noRecord rfl]
  rfl

/-- A run over a source hands over all records of its input, if they are within the limits. What it
answers, and what it makes of the state of its handler, is what the rows handed over in turn do. -/
theorem initial_reads (source : Source) {options : Options} (steady : source.Steady)
    (allowed : options.Allowed) (single : SingleMark source.rest)
    (fits : ∀ r ∈ reference options.delimiter source.rest, options.Fits r) :
    ∃ rows, Deliver 0 (reference options.delimiter source.rest) rows ∧
      ∀ (β : Type) (handler : RowHandler β) (s : β), ∃ q,
        (initial source options).drain handler s =
            ((feed handler rows s).1, q, (feed handler rows s).2) ∧
          ((feed handler rows s).1 = .ok () → q.status = .finished) := by
  obtain ⟨rows, taken, ending, takes, deliver, run⟩ := initial_takes source steady allowed single
  obtain ⟨rfl, rfl⟩ := takes.all_of_fits fits
  refine ⟨rows, deliver, fun β handler s => ?_⟩
  have ran := run β handler s
  simpa using ran

theorem initial_handsOver (source : Source) {options : Options} (steady : source.Steady)
    (allowed : options.Allowed) (single : SingleMark source.rest)
    (fits : ∀ r ∈ reference options.delimiter source.rest, options.Fits r) :
    ∃ rows, Deliver 0 (reference options.delimiter source.rest) rows ∧
      (initial source options).HandsOver rows (.ok ()) := by
  obtain ⟨rows, taken, ending, takes, deliver, run⟩ := initial_takes source steady allowed single
  obtain ⟨rfl, rfl⟩ := takes.all_of_fits fits
  exact ⟨rows, deliver, handsOver_of_run run⟩

end Parser

/-! ## The records handed over -/

def keepCells : RowHandler (List Record) := fun row rs => (.ok (), rs ++ [row.cells])

@[simp] theorem feed_keepCells (rows : List Row) (rs : List Record) :
    feed keepCells rows rs = (.ok (), rs ++ rows.map Row.cells) := by
  induction rows generalizing rs with
  | nil => rw [feed, List.map_nil, List.append_nil]
  | cons row rest ih =>
    rw [feed, keepCells]
    dsimp only
    rw [ih, List.map_cons, List.append_assoc, List.singleton_append]

/-- The records that a parse of a source hands over, if it accepts all of the source. -/
def delivered (source : Source) (options : Options) : Except Error (List Record) :=
  match Parser.new source options with
  | .error error => .error error
  | .ok p =>
    match p.drain keepCells [] with
    | (.error error, _, _) => .error error
    | (.ok (), _, rs) => .ok rs

theorem delivered_of_handsOver {source : Source} {options : Options} (allowed : options.Allowed)
    {rows : List Row} {ending : Except Error Unit}
    (run : (Parser.initial source options).HandsOver rows ending) :
    delivered source options = ending.map fun _ => rows.map Row.cells := by
  obtain ⟨q, drained⟩ := run _ keepCells []
  rw [feed_keepCells] at drained
  rw [delivered, Parser.new_eq_initial source allowed]
  dsimp only
  rw [drained]
  cases ending <;> rfl

/-- A parse hands over the records of its input, one row each, numbered from 1. How much is read at
once, which reads are interrupted and what the handler does make no difference to the rows. -/
theorem drain_delivers_reference (input : Bytes) (reads : List ReadEvent) (options : Options)
    (allowed : options.Allowed) (steady : ∀ event ∈ reads, event.isSteady = true)
    (single : SingleMark input) (fits : ∀ r ∈ reference options.delimiter input, options.Fits r) :
    ∃ p rows, Parser.new (Source.ofBytes input reads) options = .ok p ∧
      rows.map Row.cells = reference options.delimiter input ∧
      rows.map Row.number = List.range' 1 (reference options.delimiter input).length ∧
      ∀ (β : Type) (handler : RowHandler β) (s : β), ∃ q,
        p.drain handler s = ((feed handler rows s).1, q, (feed handler rows s).2) ∧
          ((feed handler rows s).1 = .ok () → q.status = .finished) := by
  obtain ⟨rows, deliver, run⟩ :=
    Parser.initial_reads (Source.ofBytes input reads) steady allowed single fits
  exact ⟨_, rows, Parser.new_eq_initial _ allowed, deliver.cells, deliver.numbers, run⟩

/-- A mark, a doubled quote and a line break of two bytes are cut by the reads. -/
theorem drain_delivers_cut_input :
    let input : Bytes := [0xEF, 0xBB, 0xBF, 10, 34, 97, 34, 34, 34, 44, 98, 13, 10, 99]
    let reads : List ReadEvent := [.atMost 2, .interrupted, .atMost 1]
    let options : Options := { bufferSize := 4, maxColumns := 2, readChunk := 1 }
    let rs : List Record := [[⟨[97, 34], true⟩, ⟨[98], false⟩], [⟨[99], false⟩]]
    reference options.delimiter input = rs ∧
      ∃ p rows, Parser.new (Source.ofBytes input reads) options = .ok p ∧
        rows.map Row.cells = rs ∧ rows.map Row.number = [1, 2] ∧
        ∀ (β : Type) (handler : RowHandler β) (s : β), ∃ q,
          p.drain handler s = ((feed handler rows s).1, q, (feed handler rows s).2) ∧
            ((feed handler rows s).1 = .ok () → q.status = .finished) := by
  intro input reads options rs
  have found : reference options.delimiter input = rs := by decide +kernel
  have fits : ∀ r ∈ reference options.delimiter input, options.Fits r := by
    rw [found]
    decide
  have run := drain_delivers_reference input reads options ⟨rfl, by decide, by decide⟩ (by decide)
    (by decide) fits
  rw [found] at run
  exact ⟨found, run⟩

end Tabular.Csv
