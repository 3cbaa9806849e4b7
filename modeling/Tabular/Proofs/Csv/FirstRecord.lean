import Tabular.Proofs.Csv.CutInput

/-!
A record that is ended by its line break. Nothing behind the line break has a part in what a parse
makes of the record, even if it has been read already: the record is handed over or refused, and if
it is over both limits the one that it meets first decides.
-/
namespace Tabular.Csv

namespace Grammar

/-- The text holds the whole of its first record, the line break that ends it included. -/
def HoldsRecord (delimiter : UInt8) (text : Bytes) : Prop :=
  ∃ r rest, ∀ later, record delimiter (text ++ later) = (r, rest ++ later)

theorem holdsRecord_of_more {delimiter : UInt8} {text : Bytes} {b : UInt8}
    (more : (record delimiter (text ++ [b])).2 ≠ []) : HoldsRecord delimiter text := by
  obtain ⟨taken, split, reads⟩ := record_split delimiter (text ++ [b]) more
  obtain ⟨rest, last, same⟩ := (List.eq_nil_or_concat _).resolve_left more
  rw [same, List.concat_eq_append, ← List.append_assoc] at split
  obtain ⟨rfl, -⟩ := List.append_inj' split rfl
  refine ⟨(record delimiter (taken ++ rest ++ [b])).1, rest, fun later => ?_⟩
  rw [List.append_assoc, reads]

theorem holdsRecord_iff (delimiter : UInt8) (text : Bytes) :
    HoldsRecord delimiter text ↔ (record delimiter (text ++ [0])).2 ≠ [] := by
  refine ⟨fun ⟨r, rest, reads⟩ => ?_, holdsRecord_of_more⟩
  rw [reads]
  exact List.append_ne_nil_of_right_ne_nil _ (List.cons_ne_nil _ _)

instance (delimiter : UInt8) (text : Bytes) : Decidable (HoldsRecord delimiter text) :=
  decidable_of_iff _ (holdsRecord_iff delimiter text).symm

theorem HoldsRecord.ne_nil {delimiter : UInt8} {text : Bytes}
    (held : HoldsRecord delimiter text) : text ≠ [] := by
  rintro rfl
  obtain ⟨r, rest, reads⟩ := held
  have shorter := record_length_lt delimiter [0] (List.cons_ne_nil _ _)
  have first := reads [0]
  rw [List.nil_append] at first
  rw [first, List.length_append] at shorter
  omega

theorem HoldsRecord.startsWithMark {text : Bytes} (held : HoldsRecord Byte.comma text)
    (later : Bytes) : startsWithMark (text ++ later) = startsWithMark text := by
  have open_ := (holdsRecord_iff Byte.comma text).mp held
  match text with
  | [] => exact absurd (by decide +kernel) open_
  | [a] =>
    by_cases first : a = 0xEF
    · subst first
      exact absurd (by decide +kernel) open_
    · simp [Tabular.startsWithMark, byteOrderMark, List.isPrefixOf, Ne.symm first]
  | [a, b] =>
    by_cases both : a = 0xEF ∧ b = 0xBB
    · obtain ⟨rfl, rfl⟩ := both
      exact absurd (by decide +kernel) open_
    · rcases not_and_or.mp both with other | other <;>
        simp [Tabular.startsWithMark, byteOrderMark, List.isPrefixOf, Ne.symm other]
  | a :: b :: c :: rest => rfl

/-- The first record of an input is ended within it. -/
def HoldsHeader (input : Bytes) : Prop :=
  HoldsRecord Byte.comma ((withoutMark input).dropWhile Byte.isLineBreak)

instance (input : Bytes) : Decidable (HoldsHeader input) :=
  inferInstanceAs (Decidable (HoldsRecord _ _))

theorem withoutMark_append {front : Bytes} (held : HoldsHeader front) (later : Bytes) :
    withoutMark (front ++ later) = withoutMark front ++ later := by
  cases marked : Tabular.startsWithMark front with
  | true =>
    obtain ⟨rest, rfl⟩ := (startsWithMark_iff front).mp marked
    rw [withoutMark, withoutMark, marked, List.append_assoc,
      (startsWithMark_iff _).mpr ⟨rest ++ later, rfl⟩]
    rfl
  | false =>
    have same : withoutMark front = front := by
      rw [withoutMark, marked, if_neg Bool.false_ne_true]
    rw [HoldsHeader, same] at held
    rw [same]
    have unmarked : Tabular.startsWithMark (front ++ later) = false := by
      by_contra found
      rw [Bool.not_eq_false] at found
      obtain ⟨rest, split⟩ := (startsWithMark_iff _).mp found
      -- The front would begin as the mark does, and not with a line break.
      have begun : front.dropWhile Byte.isLineBreak = front := by
        cases front with
        | nil => rfl
        | cons b more =>
          obtain ⟨rfl, -⟩ := List.cons.inj split
          rfl
      rw [begun] at held
      rw [held.startsWithMark, marked] at found
      cases found
    rw [withoutMark, unmarked, if_neg Bool.false_ne_true]

end Grammar

open Grammar

def headerOf (input : Bytes) : Record := (reference Byte.comma input).headD []

theorem reference_append {front : Bytes} (held : HoldsHeader front) (single : SingleMark front) :
    ∃ rest, ∀ later, SingleMark (front ++ later) ∧
      reference Byte.comma (front ++ later) =
        headerOf front :: records Byte.comma (rest ++ later) := by
  have ⟨r, rest, reads⟩ := held
  have left : (withoutMark front).dropWhile Byte.isLineBreak ≠ [] := HoldsRecord.ne_nil held
  have behind : ∀ later, (withoutMark front ++ later).dropWhile Byte.isLineBreak =
      (withoutMark front).dropWhile Byte.isLineBreak ++ later := by
    intro later
    rw [List.dropWhile_append, if_neg (by simpa using left)]
  have whole : ∀ later, reference Byte.comma (front ++ later) =
      r :: records Byte.comma (rest ++ later) := by
    intro later
    have begun : ∀ b, ((withoutMark front).dropWhile Byte.isLineBreak ++ later).head? = some b →
        Byte.isLineBreak b = false := by
      intro b same
      have met := List.head?_dropWhile_not Byte.isLineBreak (withoutMark front ++ later)
      rw [behind, same] at met
      simpa using met
    rw [reference, withoutMark_append held, ← records_dropWhile, behind,
      records_eq_cons _ _ (List.append_ne_nil_of_left_ne_nil left _) begun, reads]
  have first := whole []
  rw [List.append_nil] at first
  refine ⟨rest, fun later => ⟨?_, ?_⟩⟩
  · rw [SingleMark, withoutMark_append held, behind, HoldsRecord.startsWithMark held]
    exact single
  · rw [whole, headerOf, first]
    rfl

namespace Grammar

theorem resume_length_le (delimiter : UInt8) (state : TokenState) (text : Bytes) :
    (resume delimiter state text).2.length ≤ text.length := by
  have quoted : ∀ text, (quotedRest delimiter text).2.length ≤ text.length := fun text =>
    Nat.le_trans (plainText_length_le _ _) (quotedText_length_le _)
  cases state with
  | recordStart | fieldEnd | recordEnd => exact cell_length_le delimiter text
  | inField => exact plainText_length_le delimiter text
  | inQuoted => exact quoted text
  | afterQuote =>
    rw [resume]
    split
    · exact Nat.le_trans (quoted text.tail) (by rw [List.length_tail]; exact Nat.sub_le _ _)
    · exact plainText_length_le delimiter text

theorem closeCell_length_le (delimiter : UInt8) (c : Cell) (text : Bytes) :
    (closeCell delimiter c text).2.length ≤ text.length - 1 := by
  cases text with
  | nil => exact Nat.le_refl 0
  | cons b rest =>
    rw [closeCell]
    split
    · exact record_length_le delimiter rest
    · exact Nat.le_refl _

end Grammar

/-! ## Both limits at once -/

theorem recordSize_take_le (r : Record) {few many : Nat} (fewer : few ≤ many) :
    recordSize (r.take few) ≤ recordSize (r.take many) := by
  obtain ⟨rest, split⟩ := List.take_prefix_take_left (l := r) fewer
  rw [← split, recordSize_append]
  exact Nat.le_add_right _ _

/-- What becomes of a record that is ended by a line break. Its cells are counted as they end, and
until then their text is what takes memory. -/
def Options.verdict (o : Options) (number : Nat) (r : Record) : Except Error Unit :=
  if o.bufferSize ≤ recordSize (r.take (o.maxColumns + 1)) then
    .error (.rowTooLarge number o.bufferSize)
  else if o.maxColumns < r.length then .error (.tooManyColumns number o.maxColumns)
  else .ok ()

theorem Options.verdict_of_fits {o : Options} {r : Record} (fits : o.Fits r) (number : Nat) :
    o.verdict number r = .ok () := by
  obtain ⟨narrow, small⟩ := fits
  rw [verdict, List.take_of_length_le (Nat.le_succ_of_le narrow), if_neg (Nat.not_le_of_lt small),
    if_neg (Nat.not_lt_of_le narrow)]

namespace Parser

variable {p q : Parser} {n : Nat} {text : Bytes}

/-- The failure to be reported of a record that is over a limit, as soon as it is. -/
inductive Refusal (p : Parser) (r : Record) : Error → Prop where
  | columns (wide : p.options.maxColumns < r.length)
      (room : p.rowStart + recordSize (r.take (p.options.maxColumns + 1)) < p.buffer.capacity) :
      Refusal p r (.tooManyColumns (p.rows + 1) p.options.maxColumns)
  | size (large : p.buffer.capacity ≤
        p.rowStart + recordSize (r.take (p.options.maxColumns + 1))) :
      Refusal p r (.rowTooLarge (p.rows + 1) p.buffer.capacity)

theorem Refusal.of_continues (continues : Continues p q) {r : Record} {error : Error}
    (refusal : q.Refusal r error) : p.Refusal r error := by
  cases refusal with
  | columns wide room =>
    rw [continues.options] at wide
    rw [continues.options, continues.rowStart, continues.bufferCapacity] at room
    rw [continues.rows, continues.options]
    exact .columns wide room
  | size large =>
    rw [continues.options, continues.rowStart, continues.bufferCapacity] at large
    rw [continues.rows, continues.bufferCapacity]
    exact .size large

theorem closeCell_take_one (delimiter : UInt8) (c : Cell) (text : Bytes) :
    (closeCell delimiter c text).1.take 1 = [c] := by
  unfold closeCell
  split
  · rfl
  · split <;> rfl

theorem recordSize_inHand (layout : Layout p) (more : Bytes) (quoted : Bool) :
    p.rowStart + recordSize (p.doneCells ++ [{ bytes := p.openText ++ more, quoted }]) =
      p.buffer.live.size + more.length := by
  have done := layout.recordSize_doneCells
  have inCell := layout.length_openText
  rw [recordSize_append]
  simp only [recordSize, List.map_cons, List.map_nil, List.sum_cons, List.sum_nil,
    List.length_append] at done ⊢
  omega

theorem size_le_completion_take (layout : Layout p) (opened : p.fieldOpen = true) (text : Bytes) :
    p.buffer.live.size ≤
      p.rowStart + recordSize ((p.completion text).1.take (p.spans.size + 1)) := by
  rw [completion, opened, if_pos rfl, ← length_doneCells, List.take_length_add_append,
    closeCell_take_one, recordSize_inHand layout]
  exact Nat.le_add_right _ _

theorem Refusal.of_full (layout : Layout p) (full : p.options.maxColumns ≤ p.spans.size)
    (room : p.buffer.live.size < p.buffer.capacity) (quoted : Bool) (more : Record) :
    p.Refusal (p.doneCells ++ { bytes := p.openText, quoted } :: more)
      (.tooManyColumns (p.rows + 1) p.options.maxColumns) := by
  have cells : p.doneCells.length = p.options.maxColumns := by
    simpa using Nat.le_antisymm layout.columns_le full
  refine .columns ?_ ?_
  · rw [List.length_append, cells, List.length_cons]
    omega
  · have size := recordSize_inHand layout [] quoted
    rw [List.append_nil] at size
    rw [← cells, List.take_length_add_append, List.take_succ_cons, List.take_zero, size]
    exact room

theorem tokenize_noRoom (begun : Begun p) (tokenized : p.tokenize = (.noRoom, q)) :
    ∃ taken rest, p.window.pending = taken ++ rest ∧ ∀ later, p.buffer.capacity ≤
      p.rowStart + recordSize ((p.completion (taken ++ later)).1.take (p.spans.size + 1)) := by
  have layout := begun.toLayout
  by_cases empty : p.window.pending = []
  · have ended := tokenize_ended begun empty
    rw [tokenized] at ended
    cases ended with
    | noRoom q taken rest split left full large =>
      exact absurd (List.append_eq_nil_iff.mp (split.symm.trans empty)).2 left
  by_cases room : p.buffer.live.size < p.buffer.capacity
  · have read := readField_of_begun begun empty room
    obtain ⟨taken, kept, progress, split, grown, -, reads⟩ := scan_begun p.tokenizer.delimiter
      p.buffer.capacity p.tokenizer.state p.window.pending p.buffer.live empty room begun.begun
    generalize scan p.tokenizer.delimiter p.buffer.capacity p.tokenizer.state
      p.window.pending p.buffer.live = reached at read split grown reads
    have same := tokenize_eq read
    have result := (congrArg Prod.fst same).symm.trans (congrArg Prod.fst tokenized)
    dsimp only at same result
    refine ⟨taken, reached.rest, split, fun later => ?_⟩
    rcases reads with ⟨final, -⟩ | ⟨inside, stopped, reading⟩
    · cases state : reached.state <;> rw [state] at final result <;>
        first | cases result | cases final
    · rw [classify_within inside] at result
      have full : reached.rest ≠ [] ∧ p.buffer.capacity ≤ reached.out.size := by
        simpa using result
      have moved := (Move.tokenize p).layout layout
      have onward := completion_of_grown (q := p.tokenize.2) layout begun.opened rfl rfl rfl rfl
        (by simp [tokenize]) (by rw [same]; exact grown)
        (by rw [same]; exact reading later)
      have more := size_le_completion_take moved begun.opened later
      rw [onward, same] at more
      exact Nat.le_trans full.2 more
  · exact ⟨[], p.window.pending, rfl, fun later =>
      Nat.le_trans (Nat.le_of_not_lt room) (size_le_completion_take layout begun.opened _)⟩

theorem tokenize_refuses {r : Parser} {error : Error} (begun : Begun p)
    (waits : p.window.pending ≠ []) (settled : settle p.tokenize = (.error error, r))
    (later : Bytes) : p.Refusal (p.completion (p.window.pending ++ later)).1 error := by
  have reading := (Move.tokenize p).continues
  have moved := (Move.tokenize p).layout begun.toLayout
  have reads := tokenize_reads begun
  rcases tokenized : p.tokenize with ⟨result, q⟩
  rw [tokenized] at reading moved reads settled
  cases result with
  | inputUsed => cases settled
  | dataEnd => cases settled
  | noRoom =>
    obtain ⟨taken, rest, split, large⟩ := tokenize_noRoom begun tokenized
    cases settled
    rw [reading.rows, reading.bufferCapacity, split, List.append_assoc]
    refine .size (Nat.le_trans (large _) (Nat.add_le_add_left (recordSize_take_le _ ?_) _))
    exact Nat.succ_le_succ begun.columns_le
  | field endsRecord =>
    cases reads with
    | ends q endsRecord taken split something state same roomy room =>
      have progress : taken ≠ [] := fun none => waits (something none).1
      have whole := same (q.window.pending ++ later) fun none => absurd none progress
      rw [← List.append_assoc, ← split] at whole
      rcases q.endCell_cases with ⟨full, refused⟩ | ⟨u, ended, -⟩
      · simp only [settle, refused] at settled
        obtain rfl := Except.error.inj (congrArg Prod.fst settled)
        rw [whole]
        refine Refusal.of_continues (q := q) reading ?_
        cases endsRecord <;> exact Refusal.of_full moved full (room progress) _ _
      · simp only [settle, ended] at settled
        cases settled

theorem advance_refuses {atEnd : Bool} {error : Error} (coherent : Coherent p)
    (unmarked : Unmarked p p.window.pending) (waits : p.window.pending ≠ [])
    (advanced : p.advance atEnd = (.error error, q)) (later : Bytes) :
    ∃ first rest, p.ahead (p.window.pending ++ later) = first :: rest ∧
      p.Refusal first error := by
  have opening := openCell_reads atEnd coherent unmarked
  have continues := (Move.openCell p atEnd).continues
  rcases opened : p.openCell atEnd with ⟨going, r⟩
  rw [opened] at opening continues
  cases opening with
  | nothingYet r coherent empty =>
    rw [advance, opened] at advanced
    cases advanced
  | nothingMore r layout empty ended noCells going between =>
    obtain ⟨t, nothing, -⟩ := advance_of_nothing opened layout noCells going between empty
    rw [advanced] at nothing
    cases nothing
  | begun r begun skipped fronts =>
    rw [advance_settle opened] at advanced
    have some : r.window.pending ≠ [] := by
      intro none
      rw [fronts.split, none, fronts.waits none] at waits
      exact waits rfl
    have first := fronts.begins (r.window.pending ++ later) (List.head?_append_of_ne_nil _ some)
    rw [← List.append_assoc, ← fronts.split] at first
    exact ⟨_, _, first, (tokenize_refuses begun some advanced later).of_continues continues⟩

/-! ## Looking for the record -/

/-- The first of the records ahead is ended by a line break within `text`. -/
def Holds (p : Parser) (text : Bytes) (header : Record) : Prop :=
  ∃ rest, ∀ later, p.ahead (text ++ later) =
    header :: records p.tokenizer.delimiter (rest ++ later)

theorem completion_length_le (p : Parser) (text : Bytes) :
    (p.completion text).2.length ≤ text.length - 1 := by
  rw [completion]
  split
  · have left := resume_length_le p.tokenizer.delimiter p.tokenizer.state text
    have closed := closeCell_length_le p.tokenizer.delimiter
      { bytes := p.openText ++ (resume p.tokenizer.delimiter p.tokenizer.state text).1,
        quoted := p.quoted } (resume p.tokenizer.delimiter p.tokenizer.state text).2
    dsimp only
    omega
  · rw [record_eq]
    have left := cell_length_le p.tokenizer.delimiter text
    have closed := closeCell_length_le p.tokenizer.delimiter (cell p.tokenizer.delimiter text).1
      (cell p.tokenizer.delimiter text).2
    dsimp only
    omega

/-- Every record takes a byte of what is still to come, the one in hand its line break. -/
theorem length_ahead_le (p : Parser) {text : Bytes} (some : text ≠ []) :
    (p.ahead text).length ≤ text.length := by
  have positive := List.length_pos_iff.mpr some
  unfold ahead
  split
  · have behind := p.completion_length_le text
    have few := records_length_le p.tokenizer.delimiter (p.completion text).2
    rw [List.length_cons]
    omega
  · exact records_length_le _ _

theorem Holds.ne_nil {header : Record} (holds : p.Holds text header) : text ≠ [] := by
  rintro rfl
  obtain ⟨rest, leads⟩ := holds
  have few := p.length_ahead_le (List.cons_ne_nil 0 [])
  have another : records p.tokenizer.delimiter (rest ++ [0]) ≠ [] := by
    rw [records, List.dropWhile_append]
    split <;> simp [Byte.isLineBreak, Byte.lineFeed, Byte.carriageReturn]
  rw [← List.nil_append [0], leads, List.length_cons, List.nil_append, List.length_singleton] at few
  exact another (List.eq_nil_of_length_eq_zero (Nat.le_zero.mp (Nat.le_of_succ_le_succ few)))

theorem Holds.of_took {header : Record} {taken : Bytes} (holds : p.Holds (taken ++ text) header)
    (took : Took p p.ahead taken q.ahead) (continues : Continues p q) : q.Holds text header := by
  obtain ⟨rest, leads⟩ := holds
  refine ⟨rest, fun later => ?_⟩
  rw [took.same, ← List.append_assoc, leads, continues.delimiter]

inductive Led (p : Parser) (header : Record) : Except Error StepOutcome × Parser → Prop where
  | row (q : Parser) (whole : Whole q) (cells : q.doneCells = header)
      (room : q.buffer.live.size < q.buffer.capacity) : Led p header (.ok .row, q)
  | refused (error : Error) (q : Parser) (refusal : p.Refusal header error) :
      Led p header (.error error, q)
  | unread (detail : String) (q : Parser) (scheduled : .failed detail ∈ p.source.reads) :
      Led p header (.error (.io detail), q)

theorem Led.of_continues (continues : Continues p q) {header : Record}
    {result : Except Error StepOutcome × Parser} (led : Led q header result) :
    Led p header result := by
  cases led with
  | row r whole cells room => exact .row r whole cells room
  | refused error r refusal => exact .refused error r (refusal.of_continues continues)
  | unread detail r scheduled => exact .unread detail r (continues.reads.mem scheduled)

theorem SeekStops.led {header : Record} {result : Except Error StepOutcome × Parser}
    (stops : SeekStops p result) (within : Within result.2 n) (stands : Stands p n)
    (holds : p.Holds (p.textTo n) header) : Led p header result := by
  have before := stops.within within
  have reads := stands.advance
  have ⟨rest, leads⟩ := holds
  have first := leads []
  rw [List.append_nil] at first
  cases stops with
  | noInput used ended =>
    have used' : p.textTo n = [] := by rw [textTo, used, before.upTo_nil ended, List.append_nil]
    exact absurd used' holds.ne_nil
  | unread error q open_ used filled =>
    obtain ⟨⟨detail, rfl, scheduled⟩, -⟩ := unread_of_fill filled
    exact .unread detail q scheduled
  | failed error q waits advanced =>
    obtain ⟨r, more, same, refusal⟩ := advance_refuses stands.toCoherent stands.unmarked.of_append
      waits advanced (p.source.upTo n)
    cases first.symm.trans same
    exact .refused error q refusal
  | row q waits advanced =>
    rw [advanced] at reads
    cases reads with
    | onward progress q going => simp at going
    | row q whole taken split found room =>
      have same := found (q.window.pending ++ p.source.upTo n) fun none => absurd none waits
      rw [← List.append_assoc, ← split] at same
      exact .row q whole (List.cons.inj (same.symm.trans first)).1 (room waits)
  | dataEnd q waits advanced =>
    rw [advanced] at reads
    cases reads with
    | onward progress q going => simp at going
    | dataEnd q past ended nothing =>
      rw [textTo, before.upTo_nil ended, List.append_nil, nothing] at first
      cases first

theorem seekRow_led {header : Record} (within : Within p.seekRow.2 n) (stands : Stands p n)
    (holds : p.Holds (p.textTo n) header) : Led p header p.seekRow := by
  obtain ⟨q, turns, stops⟩ := p.seekRow_turns
  have continues := (Turns.moves turns).continues
  obtain ⟨stands', taken, split, took⟩ := turns.stands (stops.within within) stands
  rw [split] at holds
  exact (stops.led within stands' (holds.of_took took continues)).of_continues continues

theorem look_led {header : Record} (within : Within p.look.2 n) (awaits : Awaits p n text)
    (holds : p.Holds text header) : Led p header p.look := by
  have reads := fun within => p.checkMark_reads (n := n) within awaits
  have marking := p.checkMark_moves.continues
  unfold look at within ⊢
  rcases marked : p.checkMark with ⟨outcome, m⟩
  rw [marked] at within reads marking
  cases outcome with
  | error error =>
    cases (reads within).1 with
    | unread detail m scheduled => exact .unread detail m scheduled
  | ok _ =>
    obtain ⟨found, unmarked⟩ := reads within.of_seekRow
    cases found with
    | ok m coherent checked same ahead tokenizer buffer =>
      have holds' : m.Holds (m.textTo n) header := by
        obtain ⟨rest, leads⟩ := holds
        exact ⟨rest, fun later => by rw [same, ahead, tokenizer, leads]⟩
      exact (seekRow_led within { coherent with
        unmarked := by rw [same, Unmarked, tokenizer]; exact unmarked } holds').of_continues marking

/-! ## The step -/

theorem Refusal.verdict {r : Record} {error : Error} (refusal : p.Refusal r error)
    (start : p.rowStart = 0) (capacity : p.buffer.capacity = p.options.bufferSize) :
    p.options.verdict (p.rows + 1) r = .error error := by
  cases refusal with
  | columns wide room =>
    rw [start, Nat.zero_add, capacity] at room
    rw [Options.verdict, if_neg (Nat.not_le_of_lt room), if_pos wide]
  | size large =>
    rw [start, Nat.zero_add, capacity] at large
    rw [Options.verdict, if_pos large, capacity]

/-- What a step makes of a record that is ended within the text to come. -/
inductive Served (p : Parser) (header : Record) : Prop where
  | row (q : Parser) (cells : q.completedRow.cells = header)
      (accepted : p.options.verdict (p.rows + 1) header = .ok ())
      (step : ∀ (β : Type) (handler : RowHandler β) (s : β),
        p.parseMore handler s = answered q.afterRow (handler q.completedRow s))
  | refused (error : Error) (q : Parser)
      (refused : p.options.verdict (p.rows + 1) header = .error error)
      (step : ∀ (β : Type) (handler : RowHandler β) (s : β), p.parseMore handler s =
        (.error error, { q with status := .failed error.message }, s))

theorem parseMore_served {header : Record} (ready : p.status = .ready)
    (awaiting : Awaiting p text) (holds : p.Holds text header) : Served p header := by
  have layout := awaiting.awaits.layout
  have supplied := awaiting.feeding.toSupplied.beginGeneration
  have within := within_extent supplied.look.ended
  rw [p.beginGeneration.look_moves.extent] at within
  have holds' : p.beginGeneration.Holds text header := by
    obtain ⟨rest, leads⟩ := holds
    exact ⟨rest, fun later => by rw [ahead_beginGeneration layout]; exact leads later⟩
  have led := look_led within awaiting.awaits.beginGeneration holds'
  have continues := p.beginGeneration.look_moves.continues
  have steps := fun {β : Type} (handler : RowHandler β) => parseMore_look handler ready
  rcases found : p.beginGeneration.look with ⟨outcome, q⟩
  rw [found] at led continues
  cases led with
  | row q whole cells room =>
    have fits := whole.fits continues (by simpa using supplied.bufferSize) room
    rw [cells] at fits
    refine .row q cells (Options.verdict_of_fits fits _) fun β handler s => ?_
    rw [steps, found]
    rfl
  | refused error q refusal =>
    refine .refused error q (refusal.verdict rfl supplied.bufferSize) fun β handler s => ?_
    rw [steps, found]
    rfl
  | unread detail q scheduled =>
    exact absurd scheduled fun scheduled => awaiting.feeding.steady.not_failed scheduled

theorem initial_served {source : Source} {options : Options} {front later : Bytes}
    (content : source.rest = front ++ later) (steady : source.Steady) (allowed : options.Allowed)
    (comma : options.delimiter = Byte.comma) (held : HoldsHeader front)
    (single : SingleMark front) : Served (initial source options) (headerOf front) := by
  obtain ⟨rest, goes_on⟩ := reference_append held single
  have awaiting := initial_awaiting source steady allowed (content ▸ (goes_on later).1)
  refine parseMore_served rfl awaiting ⟨rest ++ later, fun more => ?_⟩
  rw [ahead_of_noRecord rfl, content, withoutMark_append held, List.append_assoc,
    ← withoutMark_append held, List.append_assoc]
  show records options.delimiter _ = headerOf front :: records options.delimiter _
  rw [comma]
  exact (goes_on (later ++ more)).2

end Parser

end Tabular.Csv
