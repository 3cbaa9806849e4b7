import Tabular.Proofs.Csv.WaysToRead
import Tabular.Proofs.Csv.WholeInput

/-!
What becomes of a byte-order mark behind the first one. The tokenizer has a check of its own: a mark
that lies whole in the first slice that it is handed is left out once more. How much it is handed
first depends on the reads, so the same input may be read in more than one way.
-/
namespace Tabular.Csv

open Grammar

theorem scan_breaks (delimiter : UInt8) {capacity : Nat} {breaks : Bytes}
    (blank : ∀ b ∈ breaks, Byte.isLineBreak b = true) (text : Bytes) {out : Array UInt8}
    (room : out.size < capacity) :
    scan delimiter capacity .recordStart (breaks ++ text) out =
      scan delimiter capacity .recordStart text out := by
  induction breaks with
  | nil => rfl
  | cons b rest ih =>
    have first := blank b List.mem_cons_self
    rw [List.cons_append, scan, if_pos room]
    simp only [TokenState.step, TokenState.openRecord, first, ↓reduceIte, TokenState.isFinal,
      Bool.false_eq_true]
    exact ih fun b member => blank b (List.mem_cons_of_mem _ member)

namespace Parser

variable {p q : Parser} {n : Nat}

/-! ## Behind a mark -/

/-- A mark has been left out by the tokenizer, which has met no record since. The cell in front of
which it waits is open and its flag is down. -/
structure Skipping (p : Parser) : Prop extends Layout p where
  noCells : p.spans.isEmpty = true
  opened : p.fieldOpen = true
  unquoted : p.quoted = false
  fieldStart : p.fieldStart = p.buffer.live.size
  state : p.tokenizer.state = .recordStart
  started : p.tokenizer.started = true
  room : p.buffer.live.size < p.buffer.capacity

def unflagged (p : Parser) (text : Bytes) : List Record :=
  unflagFirst (records p.tokenizer.delimiter text)

theorem Skipping.rowStart (skipping : Skipping p) : p.rowStart = p.buffer.live.size := by
  have tiles := skipping.tiles
  rw [Array.isEmpty_iff.mp skipping.noCells] at tiles
  exact Eq.trans (show p.rowStart = p.fieldStart from tiles) skipping.fieldStart

theorem Skipping.openCell (skipping : Skipping p) (atEnd : Bool) :
    p.openCell atEnd = (true, p) := by
  rw [Parser.openCell, if_pos skipping.opened]

theorem tokenize_congr {pending : Bytes} {started : Bool}
    (read : p.tokenizer.readField p.window.pending p.buffer.capacity p.buffer.live =
      ({ p.tokenizer with started } : Tokenizer).readField pending p.buffer.capacity
        p.buffer.live) :
    p.tokenize =
      tokenize { p with tokenizer.started := started, window.pending := pending } := by
  rw [tokenize_eq read, tokenize_eq (p := { p with
    tokenizer.started := started, window.pending := pending }) rfl]

theorem Skipping.readField (skipping : Skipping p) {breaks text : Bytes}
    (blank : ∀ b ∈ breaks, Byte.isLineBreak b = true) (waits : p.window.pending = breaks ++ text)
    (some : text ≠ []) :
    p.tokenizer.readField p.window.pending p.buffer.capacity p.buffer.live =
      p.tokenizer.readField text p.buffer.capacity p.buffer.live := by
  have whole : ∀ input, p.tokenizer.withoutMark input = input := by
    intro input
    rw [Tokenizer.withoutMark, skipping.started]
    rfl
  have nonempty : breaks ++ text ≠ [] := fun none => some (List.append_eq_nil_iff.mp none).2
  rw [Tokenizer.readField, Tokenizer.readField, whole, whole, waits, skipping.state]
  simp only [List.isEmpty_iff, nonempty, some, ↓reduceIte, skipping.room]
  rw [scan_breaks _ blank text skipping.room]

theorem Skipping.blank (skipping : Skipping p) (waits : p.window.pending ≠ [])
    (blank : ∀ b ∈ p.window.pending, Byte.isLineBreak b = true) (atEnd : Bool) :
    ∃ q, p.advance atEnd = (.ok .needInput, q) ∧ Skipping q ∧ q.window.pending = [] := by
  have whole : p.tokenizer.withoutMark p.window.pending = p.window.pending := by
    rw [Tokenizer.withoutMark, skipping.started]
    rfl
  have passed := scan_breaks p.tokenizer.delimiter blank [] skipping.room
  rw [List.append_nil] at passed
  have read : p.tokenizer.readField p.window.pending p.buffer.capacity p.buffer.live =
      ⟨.inputUsed, { p.tokenizer with state := .recordStart, started := true }, [],
        p.buffer.live⟩ := by
    rw [Tokenizer.readField, whole, skipping.state]
    simp only [List.isEmpty_iff, waits, ↓reduceIte, skipping.room]
    rw [passed]
    rfl
  have layout := (Move.tokenize p).layout skipping.toLayout
  rw [tokenize_eq read] at layout
  rw [advance_settle (skipping.openCell atEnd), tokenize_eq read]
  exact ⟨_, rfl, ⟨layout, skipping.noCells, skipping.opened, skipping.unquoted,
    skipping.fieldStart, rfl, rfl, skipping.room⟩, rfl⟩

theorem Skipping.fronts (skipping : Skipping p) {breaks rest : Bytes}
    (blank : ∀ b ∈ breaks, Byte.isLineBreak b = true) (split : p.window.pending = breaks ++ rest)
    (front : rest ≠ []) (begun : ∀ b, rest.head? = some b → Byte.isLineBreak b = false) :
    Fronts p p.unflagged breaks { p with window.pending := rest } := by
  have skipped : ∀ text, p.unflagged (breaks ++ text) = p.unflagged text := by
    intro text
    rw [unflagged, unflagged, ← records_dropWhile, List.dropWhile_append_of_pos blank,
      records_dropWhile]
  have nothing : p.unflagged [] = [] := by
    rw [unflagged, records_nil]
    rfl
  refine ⟨split, fun none => absurd none front, fun text same => ?_, ?_, fun text => ?_⟩
  · have nonempty : text ≠ [] := by
      rintro rfl
      cases rest with
      | nil => exact front rfl
      | cons b rest => cases same
    have noCells : doneCells { p with window.pending := rest } = [] := by
      rw [doneCells_eq, Array.isEmpty_iff.mp skipping.noCells]
      rfl
    have noText : openText { p with window.pending := rest } = [] := by
      rw [openText, skipping.fieldStart, ← Array.length_toList, List.drop_length]
    rw [skipped, unflagged, records_eq_cons _ _ nonempty fun b this => begun b (same.symm.trans this),
      record_eq, unflagFirst_closeCell, resumed, completion, if_pos skipping.opened, noCells, noText,
      skipping.unquoted, skipping.state]
    simp only [resume, List.nil_append]
    rw [closeCell_rest]
  · rw [← List.append_nil breaks, skipped, nothing, skipping.rowStart]
    rfl
  · rw [skipping.rowStart]
    exact Nat.le_add_right _ _

theorem Skipping.advance (skipping : Skipping p)
    (front : p.window.pending.dropWhile Byte.isLineBreak ≠ []) (atEnd : Bool) :
    Advanced p atEnd p.unflagged (p.advance atEnd) := by
  have split := List.takeWhile_append_dropWhile (p := Byte.isLineBreak) (l := p.window.pending)
  have blank : ∀ b ∈ p.window.pending.takeWhile Byte.isLineBreak, Byte.isLineBreak b = true :=
    fun b member => List.mem_takeWhile_imp member
  have head : ∀ b, (p.window.pending.dropWhile Byte.isLineBreak).head? = some b →
      Byte.isLineBreak b = false := by
    intro b same
    have met := List.head?_dropWhile_not Byte.isLineBreak p.window.pending
    rw [same] at met
    simpa using met
  generalize p.window.pending.takeWhile Byte.isLineBreak = breaks at split blank
  generalize p.window.pending.dropWhile Byte.isLineBreak = rest at split front head
  have tokenized : p.tokenize = tokenize { p with window.pending := rest } := by
    rw [tokenize_eq (skipping.readField blank split.symm front),
      tokenize_eq (p := { p with window.pending := rest }) rfl]
  have begun : Begun { p with window.pending := rest } :=
    { skipping.toLayout with
      opened := skipping.opened
      ended := fun none => absurd none front
      begun := fun _ => head
      unmarked := fun fresh => absurd (skipping.started.symm.trans fresh) (by simp) }
  rw [advance_settle (skipping.openCell atEnd), tokenized]
  exact advanced_of_read (skipping.fronts blank split.symm front head) begun
    { Continues.refl p with } rfl rfl

theorem Skipping.fill (skipping : Skipping p) (filled : p.fill = (.ok (), q)) : Skipping q := by
  obtain ⟨atEnd, same⟩ := p.fill_eq
  rw [filled] at same
  rw [show q = _ from same]
  exact { skipping with }

theorem Skipping.isOver (skipping : Skipping p) (empty : p.window.pending = []) : Over p :=
  { skipping.toLayout with
    noCells := skipping.noCells
    opened := skipping.opened
    state := skipping.state
    started := skipping.started
    empty }

theorem stands_of_started (coherent : Coherent p) (started : p.tokenizer.started = true) (n : Nat) :
    Stands p n :=
  { coherent with unmarked := unmarked_of_started started _ }

theorem seekRow_of_begun {ahead : Bytes → List Record} (waits : p.window.pending ≠ [])
    (front : p.window.pending.dropWhile Byte.isLineBreak ≠ [])
    (reads : Advanced p p.atEnd ahead (p.advance p.atEnd)) (within : Within p.seekRow.2 n) :
    Sought p ahead n (p.textTo n) p.seekRow := by
  have source := p.advance_source p.atEnd
  rw [seekRow_of_waits waits] at within ⊢
  rcases advanced : p.advance p.atEnd with ⟨outcome, q⟩
  rw [advanced] at reads source within
  have onward : Within q.seekRow.2 n → (∃ progress, outcome = .ok progress ∧
      (progress = .field ∨ progress = .needInput)) → Sought p ahead n (p.textTo n) q.seekRow := by
    clear within
    rintro within ⟨progress, rfl, going⟩
    cases reads with
    | onward progress q _ coherent offered taken split same roomy =>
      have started := offered.resolve_right fun passed => front passed.blank
      have text : p.textTo n = taken ++ q.textTo n := by
        rw [textTo, textTo, split, source, List.append_assoc]
      rw [text]
      exact (q.seekRow_reads within (stands_of_started coherent started n)).of_took ⟨same, roomy⟩
        (moves_of_advance advanced).continues
    | row q => simp at going
    | dataEnd q => simp at going
  rcases outcome with error | _ | _ | _ | _
  · exact reads.sought advanced waits within
  · exact onward within ⟨_, rfl, Or.inl rfl⟩
  · exact reads.sought advanced waits within
  · exact onward within ⟨_, rfl, Or.inr rfl⟩
  · exact reads.sought advanced waits within

/-- The loop has come to something: more than line breaks waits, or nothing more will. -/
inductive Settled (p : Parser) : Prop where
  | front (waits : p.window.pending ≠ []) (front : p.window.pending.dropWhile Byte.isLineBreak ≠ [])
  | last (waits : p.window.pending ≠ []) (blank : p.window.pending.dropWhile Byte.isLineBreak = [])
      (ended : p.atEnd = true)
  | ended (used : p.window.pending = []) (ended : p.atEnd = true)
  | unread (used : p.window.pending = []) (open_ : p.atEnd = false) (error : Error) (q : Parser)
      (filled : p.fill = (.error error, q))

structure PassedBy (p r : Parser) (n : Nat) (breaks : Bytes) : Prop where
  same : r.seekRow = p.seekRow
  moves : Moves p r
  blank : ∀ b ∈ breaks, Byte.isLineBreak b = true
  split : p.textTo n = breaks ++ r.textTo n

theorem PassedBy.refl (p : Parser) (n : Nat) : PassedBy p p n [] :=
  ⟨rfl, Moves.refl p, fun _ none => absurd none List.not_mem_nil, rfl⟩

theorem PassedBy.trans {r : Parser} {breaks more : Bytes} (first : PassedBy p q n breaks)
    (then_ : PassedBy q r n more) : PassedBy p r n (breaks ++ more) where
  same := then_.same.trans first.same
  moves := first.moves.trans then_.moves
  blank b member := (List.mem_append.mp member).elim (first.blank b) (then_.blank b)
  split := by rw [first.split, then_.split, List.append_assoc]

theorem passedBy_fill (used : p.window.pending = []) (open_ : p.atEnd = false)
    (filled : p.fill = (.ok (), q)) (within : Within q n) : PassedBy p q n [] where
  same := seekRow_of_fill used open_ filled
  moves := moves_of_fill filled
  blank _ none := absurd none List.not_mem_nil
  split := (Filling.textTo ⟨open_, Or.inl used, filled⟩ within).symm

theorem passedBy_advance (waits : p.window.pending ≠ [])
    (blank : p.window.pending.dropWhile Byte.isLineBreak = [])
    (advanced : p.advance p.atEnd = (.ok .needInput, q)) (empty : q.window.pending = []) :
    PassedBy p q n p.window.pending where
  same := by
    rw [seekRow_of_waits waits, advanced]
    rfl
  moves := moves_of_advance advanced
  blank := List.dropWhile_eq_nil_iff.mp blank
  split := by
    have source := p.advance_source p.atEnd
    rw [advanced] at source
    rw [textTo, textTo, empty, show q.source = p.source from source]
    rfl

theorem seekRow_passes (Idle : Parser → Prop)
    (fills : ∀ p q, Idle p → p.window.pending = [] → p.atEnd = false → p.fill = (.ok (), q) →
      Idle q)
    (passes : ∀ p, Idle p → p.window.pending ≠ [] →
      p.window.pending.dropWhile Byte.isLineBreak = [] → p.atEnd = false →
      ∃ q, p.advance p.atEnd = (.ok .needInput, q) ∧ Idle q ∧ q.window.pending = [])
    (p : Parser) (idle : Idle p) (within : Within p.seekRow.2 n) :
    ∃ r breaks, Idle r ∧ Settled r ∧ PassedBy p r n breaks := by
  by_cases waits : p.window.pending = []
  · cases ended : p.atEnd with
    | true => exact ⟨p, [], idle, .ended waits ended, .refl p n⟩
    | false =>
      rcases filled : p.fill with ⟨error | _, q⟩
      · exact ⟨p, [], idle, .unread waits ended error q filled, .refl p n⟩
      · have less : q.work < p.work := by
          have shrinks := p.work_fill_lt ended (by rw [filled])
          rwa [filled] at shrinks
        rw [← seekRow_of_fill waits ended filled] at within
        obtain ⟨r, breaks, idle, settled, past⟩ :=
          seekRow_passes Idle fills passes q (fills p q idle waits ended filled) within
        exact ⟨r, _, idle, settled,
          (passedBy_fill waits ended filled within.of_seekRow).trans past⟩
  · by_cases front : p.window.pending.dropWhile Byte.isLineBreak = []
    · cases ended : p.atEnd with
      | true => exact ⟨p, [], idle, .last waits front ended, .refl p n⟩
      | false =>
        obtain ⟨q, advanced, idle, empty⟩ := passes p idle waits front ended
        have less : q.work < p.work := by
          have shrinks := p.work_advance_lt _ (Or.inl waits) _ (by rw [advanced]) (by simp)
          rwa [advanced] at shrinks
        have onward := passedBy_advance (n := n) waits front advanced empty
        rw [← onward.same] at within
        obtain ⟨r, breaks, idle, settled, past⟩ := seekRow_passes Idle fills passes q idle within
        exact ⟨r, _, idle, settled, onward.trans past⟩
    · exact ⟨p, [], idle, .front waits front, .refl p n⟩
termination_by p.work

theorem unflagged_breaks {breaks : Bytes} (blank : ∀ b ∈ breaks, Byte.isLineBreak b = true)
    (text : Bytes) : p.unflagged (breaks ++ text) = p.unflagged text := by
  rw [unflagged, unflagged, ← records_dropWhile, List.dropWhile_append_of_pos blank,
    records_dropWhile]

@[simp] theorem unflagged_nil (p : Parser) : p.unflagged [] = [] := by
  rw [unflagged, records_nil]
  rfl

theorem Took.unflagged {breaks : Bytes} (blank : ∀ b ∈ breaks, Byte.isLineBreak b = true)
    (continues : Continues p q) : Took p p.unflagged breaks q.unflagged where
  same later := by
    rw [unflagged_breaks blank, Parser.unflagged, Parser.unflagged, continues.delimiter]
  roomy := by
    have front := unflagged_breaks (p := p)
      (fun b member => blank b (List.dropLast_subset _ member)) []
    rw [List.append_nil, unflagged_nil] at front
    exact fun _ some => absurd front some

theorem Skipping.ended (skipping : Skipping p) (used : p.window.pending = [])
    (ended : p.atEnd = true) (within : Within p n) :
    p.seekRow = (.ok .noMoreInput, p) ∧ Sought p p.unflagged n [] (.ok .noMoreInput, p) := by
  have past := skipping.isOver used
  have text : p.textTo n = [] := by rw [textTo, used, within.upTo_nil ended]; rfl
  constructor
  · rw [Parser.seekRow, dif_pos (by simpa using used), dif_pos ended]
  · exact .noMore p (Or.inr past) text (past.ahead_nil.trans (unflagged_nil p).symm)
      fun some => absurd rfl some

theorem Skipping.seekRow (skipping : Skipping p) (within : Within p.seekRow.2 n) :
    Sought p p.unflagged n (p.textTo n) p.seekRow := by
  obtain ⟨r, breaks, skipping, settled, passed⟩ :=
    seekRow_passes Skipping
      (fun p q skipping _ _ filled => skipping.fill filled)
      (fun p skipping waits blank _ =>
        skipping.blank waits (List.dropWhile_eq_nil_iff.mp blank) p.atEnd)
      p skipping within
  have continues := passed.moves.continues
  rw [← passed.same] at within ⊢
  rw [passed.split]
  refine Sought.of_took ?_ (Took.unflagged passed.blank continues) continues
  have before := within.of_seekRow
  cases settled with
  | front waits front =>
    exact seekRow_of_begun waits front (skipping.advance front r.atEnd) within
  | last waits blank ended =>
    -- The line breaks are passed by, and then nothing is left.
    have breaks := List.dropWhile_eq_nil_iff.mp blank
    obtain ⟨q, advanced, skipping', empty⟩ := skipping.blank waits breaks r.atEnd
    have source := r.advance_source r.atEnd
    have ending := r.advance_atEnd r.atEnd
    rw [advanced] at source ending
    have text : r.textTo n = r.window.pending := by
      rw [textTo, before.upTo_nil ended, List.append_nil]
    have passed := (moves_of_advance advanced).continues
    obtain ⟨found, sought⟩ := skipping'.ended empty (ending.trans ended)
      (before.of_same source.symm ending.symm)
    rw [seekRow_of_waits waits, advanced, goOn, found, text, ← List.append_nil r.window.pending]
    exact sought.of_took (Took.unflagged breaks passed) passed
  | ended used ended =>
    obtain ⟨found, sought⟩ := skipping.ended used ended before
    rw [found, textTo, used, before.upTo_nil ended]
    exact sought
  | unread used open_ error q filled =>
    obtain ⟨⟨detail, rfl, scheduled⟩, -⟩ := unread_of_fill filled
    rw [seekRow_of_unread used open_ filled]
    exact .unread detail q scheduled

/-! ## The first record -/

structure Starting (p : Parser) : Prop extends Coherent p where
  fresh : p.tokenizer.started = false
  state : p.tokenizer.state = .recordStart
  room : p.buffer.live.size < p.buffer.capacity

theorem Starting.noRecord (starting : Starting p) : p.hasRecord = false :=
  starting.toCoherent.started starting.fresh

theorem Starting.noCells (starting : Starting p) : p.spans.isEmpty = true := by
  have none := starting.noRecord
  rw [hasRecord, Bool.or_eq_false_iff] at none
  simpa using none.1

theorem Starting.notOpened (starting : Starting p) : p.fieldOpen = false := by
  cases opened : p.fieldOpen with
  | false => rfl
  | true =>
    have within := starting.opened opened
    rw [starting.state] at within
    cases within

theorem Starting.fill (starting : Starting p) (filled : p.fill = (.ok (), q)) : Starting q := by
  obtain ⟨atEnd, same⟩ := p.fill_eq
  rw [filled] at same
  rw [show q = _ from same]
  exact { starting with }

def behindBreaks (p : Parser) : Parser := { p with window := p.window.skipLineBreaks }

theorem work_behindBreaks_le (p : Parser) : p.behindBreaks.work ≤ p.work := by
  have shorter := (List.dropWhile_suffix Byte.isLineBreak (l := p.window.pending)).length_le
  have less : p.behindBreaks.bufferedWork ≤ p.bufferedWork :=
    Nat.add_le_add_right (Nat.mul_le_mul_left 2 shorter) _
  exact Nat.add_le_add_right (Nat.add_le_add_left less _) _

theorem Starting.blank (starting : Starting p)
    (blank : p.window.pending.dropWhile Byte.isLineBreak = []) (open_ : p.atEnd = false) :
    p.advance p.atEnd = (.ok .needInput, p.behindBreaks) ∧ Starting p.behindBreaks := by
  have opening : p.openCell p.atEnd = (false, p.behindBreaks) := by
    simp only [Parser.openCell, starting.notOpened, skipBlankLines, starting.noCells, behindBreaks,
      Window.skipLineBreaks, blank, open_, Bool.false_eq_true, ↓reduceIte, List.isEmpty_nil,
      Bool.not_false, Bool.and_self]
  refine ⟨?_, { starting with }⟩
  rw [Parser.advance, opening]

/-- What the tokenizer is handed first: what waits once line breaks have been passed by. It is empty
if there is nothing else, or if a read fails first. -/
def firstSlice (p : Parser) : Bytes :=
  if p.window.pending.dropWhile Byte.isLineBreak ≠ [] then
    p.window.pending.dropWhile Byte.isLineBreak
  else if _ended : p.atEnd = true then []
  else
    match _filled : p.behindBreaks.fill with
    | (.error _, _) => []
    | (.ok (), q) => q.firstSlice
termination_by p.work
decreasing_by
  have open_ : p.behindBreaks.atEnd = false := Bool.eq_false_iff.mpr _ended
  have less := p.behindBreaks.work_fill_lt open_
  rw [_filled] at less
  exact Nat.lt_of_lt_of_le (less rfl) p.work_behindBreaks_le

theorem firstSlice_of_front (front : p.window.pending.dropWhile Byte.isLineBreak ≠ []) :
    p.firstSlice = p.window.pending.dropWhile Byte.isLineBreak := by
  rw [firstSlice, if_pos front]

theorem firstSlice_of_ended (blank : p.window.pending.dropWhile Byte.isLineBreak = [])
    (ended : p.atEnd = true) : p.firstSlice = [] := by
  rw [firstSlice, if_neg (by simp [blank]), dif_pos ended]

theorem firstSlice_of_fill (blank : p.window.pending.dropWhile Byte.isLineBreak = [])
    (open_ : p.atEnd = false) : p.firstSlice =
      match p.behindBreaks.fill with
      | (.error _, _) => []
      | (.ok (), q) => q.firstSlice := by
  rw [firstSlice, if_neg (by simp [blank]), dif_neg (by simp [open_])]
  split <;> rename_i filled <;> rw [filled]

theorem behindBreaks_of_used (used : p.window.pending = []) : p.behindBreaks = p := by
  rw [behindBreaks, Window.skipLineBreaks, used, List.dropWhile_nil, ← used]

theorem firstSlice_behindBreaks (blank : p.window.pending.dropWhile Byte.isLineBreak = [])
    (open_ : p.atEnd = false) : p.behindBreaks.firstSlice = p.firstSlice := by
  have used : p.behindBreaks.window.pending = [] := blank
  rw [firstSlice_of_fill (p := p.behindBreaks) (by rw [used, List.dropWhile_nil]) open_,
    behindBreaks_of_used used, firstSlice_of_fill blank open_]

def behindMark (p : Parser) (rest : Bytes) : Parser := { p with
  tokenizer.started := true
  window.pending := rest
  quoted := false
  fieldOpen := true }

variable {rest : Bytes}

theorem Starting.seekRow_mark (starting : Starting p)
    (front : p.window.pending.dropWhile Byte.isLineBreak = byteOrderMark ++ rest) :
    p.seekRow = goOn seekRow ((p.behindMark rest).advance p.atEnd) := by
  have waits : p.window.pending ≠ [] := by
    intro none
    rw [none] at front
    cases front
  let opened : Parser := { p with
    window.pending := byteOrderMark ++ rest
    quoted := false
    fieldOpen := true }
  have opening : p.openCell p.atEnd = (true, opened) := by
    simp only [Parser.openCell, starting.notOpened, skipBlankLines, starting.noCells,
      Window.skipLineBreaks, front, Bool.false_eq_true, ↓reduceIte]
    rfl
  have read : opened.tokenizer.readField (byteOrderMark ++ rest) p.buffer.capacity p.buffer.live =
      ({ p.tokenizer with started := true } : Tokenizer).readField rest p.buffer.capacity
        p.buffer.live := by
    rw [Tokenizer.readField, Tokenizer.readField]
    simp only [Tokenizer.withoutMark, show opened.tokenizer.started = false from starting.fresh]
    rfl
  have same : p.advance p.atEnd = (p.behindMark rest).advance p.atEnd := by
    rw [advance_settle opening, advance_settle (q := p.behindMark rest) rfl, tokenize_congr read]
    rfl
  rw [seekRow_of_waits waits, same]

theorem Starting.skipping (starting : Starting p) (rest : Bytes) : Skipping (p.behindMark rest) where
  toLayout := { starting.toLayout with }
  noCells := starting.noCells
  opened := rfl
  unquoted := rfl
  fieldStart := starting.closed starting.notOpened
  state := starting.state
  started := rfl
  room := starting.room

/-- A mark with nothing behind it is taken for the end of the data. -/
theorem Starting.atMark (starting : Starting p)
    (front : p.window.pending.dropWhile Byte.isLineBreak = byteOrderMark) :
    ∃ q, p.seekRow = (.ok .noMoreInput, q) ∧ Over q := by
  have past := (starting.skipping []).isOver rfl
  have between : (p.behindMark []).tokenizer.state.isBetweenRecords = true :=
    congrArg TokenState.isBetweenRecords starting.state
  obtain ⟨q, advanced, past'⟩ := advance_of_nothing (past.openCell p.atEnd) past.toLayout
    past.noCells past.opened between past.empty
  rw [starting.seekRow_mark front, advanced]
  exact ⟨q, rfl, past'⟩

theorem took_mark (p : Parser) {breaks : Bytes}
    (blank : ∀ b ∈ breaks, Byte.isLineBreak b = true) (some : rest ≠ []) :
    Took p (readAs p.tokenizer.delimiter (byteOrderMark ++ rest)) (breaks ++ byteOrderMark)
      (p.behindMark rest).unflagged where
  same later := by
    rw [List.append_assoc, readAs_breaks _ _ blank, readAs_marked _ some]
    rfl
  roomy _ something := by
    refine absurd ?_ something
    rw [List.dropLast_append_of_ne_nil (by decide), readAs_breaks _ _ blank, readAs_marked _ some,
      show byteOrderMark.dropLast.dropWhile Byte.isLineBreak = [0xEF, 0xBB] from rfl]
    exact unflagged_nil p

/-- What looking for the first record comes to when the tokenizer is handed `slice` first. A mark
with nothing behind it ends the parse, whatever there is. -/
structure First (p : Parser) (n : Nat) (text slice : Bytes)
    (result : Except Error StepOutcome × Parser) : Prop where
  front : slice <+: text.dropWhile Byte.isLineBreak
  found : Sought p (readAs p.tokenizer.delimiter slice) n text result ∨
    slice = byteOrderMark ∧ ∃ q, result = (.ok .noMoreInput, q) ∧ Over q

theorem Starting.readAs (starting : Starting p) {slice : Bytes}
    (unmarked : startsWithMark slice = false) :
    readAs p.tokenizer.delimiter slice = p.ahead :=
  (readAs_literal _ unmarked).trans
    (funext fun text => (ahead_of_noRecord starting.noRecord text).symm)

theorem Starting.first_blank (starting : Starting p) (within : Within p.seekRow.2 n)
    (ended : p.atEnd = true) (blank : p.window.pending.dropWhile Byte.isLineBreak = []) :
    First p n (p.textTo n) p.firstSlice p.seekRow := by
  have text : p.textTo n = p.window.pending := by
    rw [textTo, within.of_seekRow.upTo_nil ended, List.append_nil]
  have sought := p.seekRow_reads within
    { starting.toCoherent with unmarked := fun _ => by rw [text, blank]; rfl }
  rw [firstSlice_of_ended blank ended]
  refine ⟨List.nil_prefix, Or.inl ?_⟩
  rw [starting.readAs rfl]
  exact sought

theorem Starting.first_front (starting : Starting p) (within : Within p.seekRow.2 n)
    (waits : p.window.pending ≠ [])
    (front : p.window.pending.dropWhile Byte.isLineBreak ≠ []) :
    First p n (p.textTo n) p.firstSlice p.seekRow := by
  rw [firstSlice_of_front front]
  refine ⟨?_, ?_⟩
  · rw [textTo, List.dropWhile_append, if_neg (by simpa using front)]
    exact List.prefix_append _ _
  cases marked : startsWithMark (p.window.pending.dropWhile Byte.isLineBreak) with
  | false =>
    rw [starting.readAs marked]
    exact Or.inl (seekRow_of_begun waits front
      (advance_reads p.atEnd starting.toCoherent fun _ => marked) within)
  | true =>
    obtain ⟨rest, same⟩ := (startsWithMark_iff _).mp marked
    rw [same]
    by_cases some : rest = []
    · rw [some, List.append_nil] at same ⊢
      exact Or.inr ⟨rfl, starting.atMark same⟩
    · have found : p.seekRow = (p.behindMark rest).seekRow := by
        rw [starting.seekRow_mark same, seekRow_of_waits (p := p.behindMark rest) some]
        rfl
      have split := List.takeWhile_append_dropWhile (p := Byte.isLineBreak) (l := p.window.pending)
      have text : p.textTo n = p.window.pending.takeWhile Byte.isLineBreak ++ byteOrderMark ++
          (p.behindMark rest).textTo n :=
        calc p.textTo n
            = p.window.pending.takeWhile Byte.isLineBreak ++ (byteOrderMark ++ rest) ++
                p.source.upTo n := by rw [← same, split, textTo]
          _ = _ := by simp only [textTo, List.append_assoc]; rfl
      rw [found] at within ⊢
      rw [text]
      exact Or.inl (((starting.skipping rest).seekRow within).of_took
        (p.took_mark (fun b member => List.mem_takeWhile_imp member) some)
        { Continues.refl p with })

theorem Starting.first_settled (starting : Starting p) (settled : Settled p)
    (within : Within p.seekRow.2 n) : First p n (p.textTo n) p.firstSlice p.seekRow := by
  cases settled with
  | front waits front => exact starting.first_front within waits front
  | last waits blank ended => exact starting.first_blank within ended blank
  | ended used ended =>
    exact starting.first_blank within ended (by rw [used, List.dropWhile_nil])
  | unread used open_ error q filled =>
    obtain ⟨⟨detail, rfl, scheduled⟩, -⟩ := unread_of_fill filled
    rw [firstSlice_of_fill (by rw [used, List.dropWhile_nil]) open_, behindBreaks_of_used used,
      seekRow_of_unread used open_ filled, filled]
    exact ⟨List.nil_prefix, Or.inl (.unread detail q scheduled)⟩

theorem Starting.first (starting : Starting p) (within : Within p.seekRow.2 n) :
    First p n (p.textTo n) p.firstSlice p.seekRow := by
  obtain ⟨r, breaks, ⟨starting, slice⟩, settled, passed⟩ :=
    seekRow_passes (fun r => Starting r ∧ r.firstSlice = p.firstSlice)
      (fun q r ⟨starting, slice⟩ used open_ filled => by
        refine ⟨starting.fill filled, Eq.trans ?_ slice⟩
        rw [firstSlice_of_fill (p := q) (by rw [used, List.dropWhile_nil]) open_,
          behindBreaks_of_used used, filled])
      (fun q ⟨starting, slice⟩ _ blank open_ => by
        obtain ⟨advanced, starting⟩ := starting.blank blank open_
        exact ⟨_, advanced, ⟨starting, (firstSlice_behindBreaks blank open_).trans slice⟩, blank⟩)
      p ⟨starting, rfl⟩ within
  have continues := passed.moves.continues
  rw [← passed.same] at within ⊢
  obtain ⟨front, found⟩ := starting.first_settled settled within
  rw [slice] at front found
  rw [passed.split]
  refine ⟨?_, found.imp_left fun sought => ?_⟩
  · rw [List.dropWhile_append_of_pos passed.blank]
    exact front
  · rw [← continues.delimiter]
    refine sought.of_took ⟨fun later => (readAs_breaks _ _ passed.blank later).symm,
      fun _ some => ?_⟩ continues
    have nothing := readAs_breaks r.tokenizer.delimiter p.firstSlice
      (fun b member => passed.blank b (List.dropLast_subset _ member)) []
    rw [List.append_nil, readAs_nil] at nothing
    exact absurd nothing some

/-- What the tokenizer is handed first in a parse. It is empty if there is nothing but line breaks,
or if a read fails first. -/
def handedFirst (p : Parser) : Bytes :=
  match p.beginGeneration.checkMark with
  | (.error _, _) => []
  | (.ok (), q) => q.firstSlice

theorem Untouched.first (untouched : Untouched p.beginGeneration)
    (fresh : p.tokenizer.started = false) (state : p.tokenizer.state = .recordStart)
    (room : p.beginGeneration.buffer.live.size < p.beginGeneration.buffer.capacity)
    (within : Within p.beginGeneration.look.2 n) :
    First p.beginGeneration n (withoutMark (p.textTo n)) p.handedFirst p.beginGeneration.look := by
  have reads := untouched.checkMark (n := n)
  have marking := p.beginGeneration.checkMark_moves.continues
  unfold handedFirst
  unfold Parser.look at within ⊢
  rcases marked : p.beginGeneration.checkMark with ⟨outcome, m⟩
  rw [marked] at within reads marking
  cases outcome with
  | error error =>
    cases reads within with
    | unread detail m scheduled => exact ⟨List.nil_prefix, Or.inl (.unread detail m scheduled)⟩
  | ok _ =>
    cases reads within.of_seekRow with
    | ok m coherent checked same ahead tokenizer buffer =>
      have starting : Starting m :=
        { coherent with
          fresh := by rw [tokenizer]; exact fresh
          state := by rw [tokenizer]; exact state
          room := by rw [buffer]; exact room }
      obtain ⟨front, found⟩ := starting.first within
      rw [same, tokenizer] at found
      rw [same] at front
      exact ⟨front, found.imp_left fun sought => sought.of_took (Took.refl _ _) marking⟩

/-- A run over a source hands over the records of its input, read in one way or another, up to the
first that is over a limit. -/
theorem initial_drains (source : Source) {options : Options} (steady : source.Steady)
    (allowed : options.Allowed) :
    (initial source options).handedFirst <+:
        (withoutMark source.rest).dropWhile Byte.isLineBreak ∧
      Drains (initial source options)
        (readAs options.delimiter (initial source options).handedFirst)
        (withoutMark source.rest) := by
  have feeding : Feeding (initial source options) :=
    ⟨initial_supplied steady.sound allowed, steady⟩
  have untouched : Untouched (initial source options).beginGeneration :=
    { (initial_untouched source options).toCoherent.beginGeneration with
      unchecked := rfl
      rows := rfl
      none := by simp [(initial_untouched source options).none]
      front := rfl }
  have within := within_extent feeding.toSupplied.beginGeneration.look.ended
  rw [(initial source options).beginGeneration.look_moves.extent] at within
  obtain ⟨front, found⟩ := untouched.first rfl rfl allowed.memory within
  rw [beginGeneration_source, initial_source] at front found
  rw [show (initial source options).textTo source.extent = source.rest from source.upTo_extent]
    at front found
  refine ⟨front, ?_⟩
  rcases found with sought | ⟨atMark, q, found, past⟩
  · refine (parseMore_of_look rfl feeding sought).drains feeding allowed.memory (readAs_nil _ _) ?_
    intro q taken whole feeding checked continues split progress
    exact drain_takes q.afterRow q.toCome continues.status
      (awaiting_afterRow whole feeding checked)
      (Nat.lt_of_lt_of_eq allowed.memory (congrArg Options.bufferSize continues.options).symm)
      whole.hasRecord_afterRow
  · -- The parse ends at once, and whatever there is goes unread.
    have step : ∀ (β : Type) (handler : RowHandler β) (s : β),
        (initial source options).parseMore handler s =
          (.ok .noMoreInput, { q with status := .exhausted }, s) := by
      intro β handler s
      rw [parseMore_look handler rfl, found]
      rfl
    have continues := (initial source options).beginGeneration.look_moves.continues
    rw [found] at continues
    have checked := look_checked found
    have nothing : ({ q with status := .exhausted } : Parser).ahead [] = [] := past.ahead_nil
    obtain ⟨rows, taken, ending, takes, deliver, -, run⟩ := finish_takes
      (p := { q with status := .exhausted }) (Or.inr rfl) checked
      (Or.inr { past with }) past.empty fun r only => by cases nothing.symm.trans only
    rw [nothing, show q.options = options from continues.options,
      show q.rows = 0 from continues.rows] at takes
    rw [show q.rows = 0 from continues.rows] at deliver
    rw [Drains, atMark, readAs_mark]
    refine ⟨rows, taken, ending, takes, deliver, fun β handler s => ?_⟩
    obtain ⟨r, finished, status⟩ := run β handler s
    refine ⟨r, ?_, fun done => ?_⟩
    · rw [drain, step]
      exact finished
    · rw [status, done]
      rfl

end Parser

/-- A parse leaves out one byte-order mark at the start of its input and takes the rest as it stands
exactly if what the tokenizer is handed first does not begin with another one. Otherwise that one is
left out as well, and with nothing behind it in that slice the parse ends there. -/
theorem drain_literal_iff (input : Bytes) (reads : List ReadEvent) (options : Options)
    (allowed : options.Allowed) (steady : ∀ event ∈ reads, event.isSteady = true)
    (comma : options.delimiter = Byte.comma)
    (fits : ∀ r ∈ reference Byte.comma input, options.Fits r) :
    ∃ p rows ending, Parser.new (Source.ofBytes input reads) options = .ok p ∧
      p.handedFirst <+: (withoutMark input).dropWhile Byte.isLineBreak ∧
      p.HandsOver rows ending ∧ rows.map Row.number = List.range' 1 rows.length ∧
      (ending = .ok () →
        rows.map Row.cells = readAs Byte.comma p.handedFirst (withoutMark input)) ∧
      (ending = .ok () ∧ rows.map Row.cells = reference Byte.comma input ↔
        startsWithMark p.handedFirst = false) := by
  obtain ⟨front, rows, taken, ending, takes, deliver, run⟩ :=
    Parser.initial_drains (Source.ofBytes input reads) steady allowed
  rw [comma] at takes
  have length : taken.length = rows.length := by rw [← deliver.cells, List.length_map]
  have all : ending = .ok () → rows.map Row.cells =
      readAs Byte.comma (Parser.initial (Source.ofBytes input reads) options).handedFirst
        (withoutMark input) := by
    rintro rfl
    rw [deliver.cells, takes.all_of_ok]
    rfl
  refine ⟨_, rows, ending, Parser.new_eq_initial _ allowed, front, Parser.handsOver_of_run run,
    length ▸ deliver.numbers, all, ?_⟩
  rw [← readAs_eq_iff front]
  constructor
  · rintro ⟨well, same⟩
    exact (all well).symm.trans same
  · intro same
    have literal : reference Byte.comma input = readAs Byte.comma _ (withoutMark input) :=
      same.symm
    rw [literal] at fits
    obtain ⟨-, well⟩ := takes.all_of_fits fits
    exact ⟨well, (all well).trans same⟩

/-- Where a read ends within the second mark it is text of the first cell. -/
theorem drain_literal_cut_mark :
    let input : Bytes := byteOrderMark ++ byteOrderMark ++ [97, 10, 98]
    let reads : List ReadEvent := [.atMost 5]
    ∃ p rows, Parser.new (Source.ofBytes input reads) {} = .ok p ∧
      rows.map Row.cells = [[⟨byteOrderMark ++ [97], false⟩], [⟨[98], false⟩]] ∧
      ∀ (β : Type) (handler : RowHandler β) (s : β), ∃ q,
        p.drain handler s = ((feed handler rows s).1, q, (feed handler rows s).2) := by
  intro input reads
  have found : reference Byte.comma input =
      [[⟨byteOrderMark ++ [97], false⟩], [⟨[98], false⟩]] := by decide +kernel
  obtain ⟨p, rows, ending, made, -, run, -, -, literal⟩ :=
    drain_literal_iff input reads {} ⟨rfl, by decide, by decide⟩ (by decide) rfl
      (by rw [found]; decide)
  have unmarked : startsWithMark p.handedFirst = false := by
    cases made
    decide +kernel
  obtain ⟨rfl, cells⟩ := literal.mpr unmarked
  refine ⟨p, rows, made, cells.trans found, fun β handler s => ?_⟩
  have ran := run β handler s
  simpa using ran

/-- Where a read ends behind the second mark nothing is handed over, and where it goes on the mark is
left out of the first cell. -/
theorem drain_loses_second_mark :
    let input : Bytes := byteOrderMark ++ byteOrderMark ++ [97, 10]
    reference Byte.comma input = [[⟨byteOrderMark ++ [97], false⟩]] ∧
      delivered (Source.ofBytes input [.atMost 6]) {} = .ok [] ∧
      delivered (Source.ofBytes input) {} = .ok [[⟨[97], false⟩]] := by
  decide +kernel

end Tabular.Csv
