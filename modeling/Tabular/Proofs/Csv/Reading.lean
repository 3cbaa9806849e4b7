import Tabular.Proofs.Csv.Advance
import Tabular.Proofs.Csv.Turns

/-!
Reading from a source of which nothing is known. Reads may fail, and one that brings nothing is the
end of the input, whatever is left behind it. So the length of the input is settled only in the end;
the records that are found on the way are those of an input of that length.
-/
namespace Tabular

namespace Source

def extent (s : Source) : Nat := s.offset + s.rest.length

/-- The bytes from the reading position on if the input has `n` bytes. -/
def upTo (s : Source) (n : Nat) : Bytes := s.rest.take (n - s.offset)

@[simp] theorem upTo_offset (s : Source) : s.upTo s.offset = [] := by
  rw [upTo, Nat.sub_self, List.take_zero]

@[simp] theorem upTo_extent (s : Source) : s.upTo s.extent = s.rest := by
  rw [upTo, extent, Nat.add_sub_cancel_left, List.take_length]

inductive Reads (s : Source) (events : List ReadEvent) : Except Error Bytes × Source → Prop where
  | ok (bytes : Bytes) (later : Source) (front : s.rest = bytes ++ later.rest)
      (offset : later.offset = s.offset + bytes.length) : Reads s events (.ok bytes, later)
  | failed (detail : String) (later : Source) (scheduled : .failed detail ∈ events)
      (rest : later.rest = s.rest) (offset : later.offset = s.offset) :
      Reads s events (.error (.io detail), later)

theorem readBy_reads (s : Source) (count : Nat) (events : List ReadEvent) :
    Reads s events (s.readBy count events) := by
  induction events with
  | nil => exact .ok _ _ (List.take_append_drop _ _).symm rfl
  | cons event later ih =>
    cases event with
    | atMost limit => exact .ok _ _ (List.take_append_drop _ _).symm rfl
    | failed detail => exact .failed detail _ List.mem_cons_self rfl rfl
    | interrupted =>
      rw [readBy]
      rcases result : s.readBy count later with ⟨outcome, after⟩
      rw [result] at ih
      cases ih with
      | ok bytes after front offset => exact .ok bytes after front offset
      | failed detail after scheduled rest offset =>
        exact .failed detail after (List.mem_cons_of_mem _ scheduled) rest offset

theorem upTo_of_read {s later : Source} {bytes : Bytes} {n : Nat}
    (front : s.rest = bytes ++ later.rest) (offset : later.offset = s.offset + bytes.length)
    (inside : later.offset ≤ n) : s.upTo n = bytes ++ later.upTo n := by
  have enough : bytes.length ≤ n - s.offset := by omega
  have left : n - s.offset - bytes.length = n - later.offset := by omega
  rw [upTo, upTo, front, List.take_append, List.take_of_length_le enough, left]

end Source

end Tabular

namespace Tabular.Csv

open Grammar

namespace Parser

/-! ## Reading on -/

inductive Filled (p : Parser) : Except Error Unit × Parser → Prop where
  | ok (bytes : Bytes) (source : Source)
      (read : p.source.read (p.window.recycled.request p.options.readChunk) = (.ok bytes, source))
      (front : p.source.rest = bytes ++ source.rest)
      (offset : source.offset = p.source.offset + bytes.length) :
      Filled p (.ok (), { p with
        window := p.window.recycled.append bytes, source, atEnd := p.atEnd || bytes.isEmpty })
  | failed (detail : String) (source : Source) (scheduled : .failed detail ∈ p.source.reads)
      (rest : source.rest = p.source.rest) (offset : source.offset = p.source.offset) :
      Filled p (.error (.io detail), { p with window := p.window.recycled, source })

theorem fill_cases (p : Parser) : Filled p p.fill := by
  have reads : p.source.Reads p.source.reads
      (p.source.read (p.window.recycled.request p.options.readChunk)) := p.source.readBy_reads _ _
  unfold fill Window.refill
  dsimp only
  rcases result : p.source.read (p.window.recycled.request p.options.readChunk) with
    ⟨outcome, source⟩
  rw [result] at reads
  cases reads with
  | ok bytes source front offset => exact .ok bytes source result front offset
  | failed detail source scheduled rest offset =>
    exact .failed detail source scheduled rest offset

theorem Move.extent {p q : Parser} (move : Move p q) : q.source.extent = p.source.extent := by
  cases move with
  | openCell atEnd => simp
  | tokenize => rfl
  | endCell => simp
  | fill =>
    have filled := p.fill_cases
    rcases result : p.fill with ⟨outcome, q⟩
    rw [result] at filled
    cases filled with
    | ok bytes source read front offset =>
      show source.offset + source.rest.length = p.source.offset + p.source.rest.length
      rw [front, offset, List.length_append, Nat.add_assoc]
    | failed detail source scheduled rest offset =>
      show source.offset + source.rest.length = p.source.offset + p.source.rest.length
      rw [rest, offset]
  | skipMark => rfl

theorem Moves.extent {p q : Parser} (moves : Moves p q) : q.source.extent = p.source.extent :=
  moves.keep (fun q => q.source.extent = p.source.extent)
    (fun _ _ move before => move.extent.trans before) rfl

/-- What was seen of the source so far agrees with an input of `n` bytes. -/
structure Within (p : Parser) (n : Nat) : Prop where
  offset_le : p.source.offset ≤ n
  ended : p.atEnd = true → p.source.offset = n

def textTo (p : Parser) (n : Nat) : Bytes := p.window.pending ++ p.source.upTo n

variable {p q : Parser} {n : Nat} {text : Bytes}

theorem Within.upTo_nil (within : Within p n) (ended : p.atEnd = true) : p.source.upTo n = [] := by
  rw [← within.ended ended]
  exact p.source.upTo_offset

theorem Within.of_same (within : Within q n) (source : q.source = p.source)
    (ending : q.atEnd = p.atEnd) : Within p n := by
  obtain ⟨offset_le, ended⟩ := within
  rw [source, ending] at ended
  rw [source] at offset_le
  exact ⟨offset_le, ended⟩

theorem Within.of_advance {atEnd : Bool} (within : Within (p.advance atEnd).2 n) : Within p n :=
  within.of_same (by simp) (by simp)

theorem Filling.within (filling : Filling p q) (within : Within q n) : Within p n := by
  have filled := p.fill_cases
  rw [filling.filled] at filled
  cases filled with
  | ok bytes source read front offset =>
    refine ⟨Nat.le_trans (offset ▸ Nat.le_add_right _ _) within.offset_le, fun ended => ?_⟩
    rw [filling.open_] at ended
    cases ended

theorem Turn.within (turn : Turn p q) (within : Within q n) : Within p n := by
  cases turn with
  | fill filling => exact filling.within within
  | advance progress waits advanced =>
    apply Within.of_advance
    rw [advanced]
    exact within

theorem Turns.within (turns : Turns p q) (within : Within q n) : Within p n := by
  induction turns with
  | refl => exact within
  | tail _ turn ih => exact ih (turn.within within)

theorem unread_of_fill {error : Error} (filled : p.fill = (.error error, q)) :
    (∃ detail, error = .io detail ∧ .failed detail ∈ p.source.reads) ∧
      ∀ n, Within q n → Within p n := by
  have reads := p.fill_cases
  rw [filled] at reads
  cases reads with
  | failed detail source scheduled rest offset =>
    refine ⟨⟨detail, rfl, scheduled⟩, fun n within => ⟨?_, fun ended => ?_⟩⟩
    · rw [← offset]
      exact within.offset_le
    · rw [← offset]
      exact within.ended ended

theorem Filling.textTo (filling : Filling p q) (within : Within q n) : q.textTo n = p.textTo n := by
  have filled := p.fill_cases
  rw [filling.filled] at filled
  cases filled with
  | ok bytes source read front offset =>
    have cut := Source.upTo_of_read front offset within.offset_le
    show p.window.recycled.pending ++ bytes ++ source.upTo n = p.window.pending ++ p.source.upTo n
    simp [cut]

/-! ## The next record -/

/-- Once `taken` has been read of what `p` was in front of, the records that were told by `ahead` are
told by `ahead'`. -/
structure Took (p : Parser) (ahead : Bytes → List Record) (taken : Bytes)
    (ahead' : Bytes → List Record) : Prop where
  same : ∀ later, ahead' later = ahead (taken ++ later)
  roomy : p.Roomy ahead taken

variable {ahead ahead' : Bytes → List Record}

theorem Took.refl (p : Parser) (ahead : Bytes → List Record) : Took p ahead [] ahead :=
  ⟨fun _ => rfl, fun some => absurd rfl some⟩

theorem Took.roomy_append {taken later : Bytes} (took : Took p ahead taken ahead')
    (continues : Continues p q) (roomy : q.Roomy ahead' later) :
    p.Roomy ahead (taken ++ later) := by
  by_cases none : later = []
  · rw [none, List.append_nil]
    exact took.roomy
  · intro _ some
    rw [List.dropLast_append_of_ne_nil none, ← took.same] at some ⊢
    have room := roomy none some
    rw [continues.rowStart, continues.bufferCapacity] at room
    exact room

theorem Took.overfull {taken : Bytes} (took : Took p ahead taken ahead')
    (continues : Continues p q) (full : q.Overfull ahead' text) :
    p.Overfull ahead (taken ++ text) := by
  obtain ⟨more, rest, split, left, large⟩ := full
  refine ⟨taken ++ more, rest, by rw [split, List.append_assoc], left, fun later => ?_⟩
  rw [List.append_assoc, ← took.same, ← continues.rowStart, ← continues.bufferCapacity]
  exact large later

theorem Took.trans {ahead'' : Bytes → List Record} {taken later : Bytes}
    (first : Took p ahead taken ahead') (continues : Continues p q)
    (then_ : Took q ahead' later ahead'') : Took p ahead (taken ++ later) ahead'' where
  same text := by rw [then_.same, first.same, List.append_assoc]
  roomy := first.roomy_append continues then_.roomy

/-- Everything is in order for looking for the next record in an input of `n` bytes. -/
structure Stands (p : Parser) (n : Nat) : Prop extends Coherent p where
  unmarked : Unmarked p (p.textTo n)

theorem startsWithMark_append {part later : Bytes}
    (none : startsWithMark (part ++ later) = false) : startsWithMark part = false := by
  cases found : startsWithMark part with
  | false => rfl
  | true =>
    obtain ⟨rest, same⟩ := (startsWithMark_iff part).mp found
    have whole : startsWithMark (part ++ later) = true :=
      (startsWithMark_iff _).mpr ⟨rest ++ later, by rw [same, List.append_assoc]⟩
    rw [whole] at none
    cases none

theorem Unmarked.of_append {later : Bytes} (unmarked : Unmarked p (text ++ later)) :
    Unmarked p text := by
  intro fresh
  have none := unmarked fresh
  rw [List.dropWhile_append] at none
  rcases front : text.dropWhile Byte.isLineBreak with _ | ⟨b, rest⟩
  · rfl
  · rw [front] at none
    exact startsWithMark_append none

theorem Stands.advance (stands : Stands p n) :
    Advanced p p.atEnd p.ahead (p.advance p.atEnd) :=
  advance_reads p.atEnd stands.toCoherent stands.unmarked.of_append

theorem Turn.stands (turn : Turn p q) (within : Within q n) (stands : Stands p n) :
    Stands q n ∧ ∃ taken, p.textTo n = taken ++ q.textTo n ∧ Took p p.ahead taken q.ahead := by
  cases turn with
  | fill filling =>
    -- What is read goes from the source into the window, so the text is the same as a whole.
    have same := filling.textTo within
    have filled := p.fill_cases
    rw [filling.filled] at filled
    cases filled with
    | ok bytes source read front offset =>
      refine ⟨{ stands.toCoherent with unmarked := ?_ }, [], same.symm,
        fun _ => rfl, fun some => absurd rfl some⟩
      rw [same]
      exact stands.unmarked
  | advance progress waits advanced going =>
    have reads := stands.advance
    have source := p.advance_source p.atEnd
    rw [advanced] at reads source
    cases reads with
    | onward progress q going coherent offered taken split same roomy =>
      have text : q.textTo n = q.window.pending ++ p.source.upTo n := by
        rw [Parser.textTo, show q.source = p.source from source]
      refine ⟨{ coherent with unmarked := ?_ }, taken, ?_, same, roomy⟩
      · rw [text]
        exact unmarked_onward offered stands.unmarked
      · rw [text, Parser.textTo, split, List.append_assoc]
    | row q => simp at going
    | dataEnd q => simp at going

theorem Turns.stands (turns : Turns p q) (within : Within q n) (stands : Stands p n) :
    Stands q n ∧ ∃ taken, p.textTo n = taken ++ q.textTo n ∧ Took p p.ahead taken q.ahead := by
  induction turns with
  | refl => exact ⟨stands, [], rfl, Took.refl p p.ahead⟩
  | @tail r q turns turn ih =>
    obtain ⟨between, taken, split, took⟩ := ih (turn.within within)
    obtain ⟨stands, more, split', took'⟩ := turn.stands within between
    exact ⟨stands, taken ++ more, by rw [split, split', List.append_assoc],
      took.trans (Turns.moves turns).continues took'⟩

theorem Exceeds.of_continues (continues : Continues p q) {r : Record} {error : Error}
    (exceeds : q.Exceeds r error) : p.Exceeds r error := by
  cases exceeds with
  | columns wide =>
    rw [continues.options] at wide
    rw [continues.rows, continues.options]
    exact .columns wide
  | size large =>
    rw [continues.bufferCapacity, continues.rowStart] at large
    rw [continues.rows, continues.bufferCapacity]
    exact .size large

theorem Over.ahead_nil (past : Over p) : p.ahead [] = [] := by
  have none : p.hasRecord = false := by
    rw [hasRecord, past.noCells, past.state]
    rfl
  simp [ahead_of_noRecord none]

/-- What looking for the next record comes to in an input of `n` bytes of which `text` is still to
come, where the records ahead are told by `ahead`. -/
inductive Sought (p : Parser) (ahead : Bytes → List Record) (n : Nat) (text : Bytes) :
    Except Error StepOutcome × Parser → Prop where
  | row (q : Parser) (whole : Whole q) (within : Within q n) (taken : Bytes)
      (split : text = taken ++ q.textTo n)
      (first : ∀ later,
        ahead (taken ++ later) = q.doneCells :: records q.tokenizer.delimiter later)
      (room : q.buffer.live.size < q.buffer.capacity) : Sought p ahead n text (.ok .row, q)
  /-- Everything has been read. What is in hand is the last record, if there is any. -/
  | noMore (q : Parser) (left : Coherent q ∨ Over q) (used : q.textTo n = [])
      (same : q.ahead [] = ahead text) (roomy : p.Roomy ahead text) :
      Sought p ahead n text (.ok .noMoreInput, q)
  | failed (error : Error) (q : Parser) (first : Record) (rest : List Record)
      (some : ahead text = first :: rest) (exceeds : p.Exceeds first error)
      (full : ∀ number, error = .rowTooLarge number p.buffer.capacity → p.Overfull ahead text) :
      Sought p ahead n text (.error error, q)
  | unread (detail : String) (q : Parser) (scheduled : .failed detail ∈ p.source.reads) :
      Sought p ahead n text (.error (.io detail), q)

theorem Sought.of_took {result : Except Error StepOutcome × Parser} {taken : Bytes}
    (sought : Sought q ahead' n text result) (took : Took p ahead taken ahead')
    (continues : Continues p q) : Sought p ahead n (taken ++ text) result := by
  cases sought with
  | row r whole within more split first room =>
    refine .row r whole within (taken ++ more) ?_ (fun later => ?_) room
    · rw [split, List.append_assoc]
    · rw [List.append_assoc, ← took.same, first]
  | noMore r left used last roomy =>
    exact .noMore r left used (last.trans (took.same text)) (took.roomy_append continues roomy)
  | failed error r first rest some exceeds full =>
    refine .failed error r first rest ((took.same text).symm.trans some)
      (exceeds.of_continues continues) fun number large => ?_
    rw [← continues.bufferCapacity] at large
    exact took.overfull continues (full number large)
  | unread detail r scheduled => exact .unread detail r (continues.reads.mem scheduled)

theorem SeekStops.within {result : Except Error StepOutcome × Parser} (stops : SeekStops p result)
    (within : Within result.2 n) : Within p n := by
  cases stops with
  | noInput used ended => exact within
  | unread error q open_ used filled => exact (unread_of_fill filled).2 n within
  | failed error q waits advanced | row q waits advanced | dataEnd q waits advanced =>
    apply Within.of_advance
    rw [advanced]
    exact within

theorem Within.of_seekRow (within : Within p.seekRow.2 n) : Within p n := by
  obtain ⟨q, turns, stops⟩ := p.seekRow_turns
  exact turns.within (stops.within within)

theorem Advanced.sought {outcome : Except Error Progress} (reads : Advanced p p.atEnd ahead (outcome, q))
    (advanced : p.advance p.atEnd = (outcome, q)) (waits : p.window.pending ≠ [])
    (within : Within q n) :
    match outcome with
    | .error error => Sought p ahead n (p.textTo n) (.error error, q)
    | .ok .row => Sought p ahead n (p.textTo n) (.ok .row, q)
    | .ok .dataEnd => Sought p ahead n (p.textTo n) (.ok .noMoreInput, q)
    | .ok .field | .ok .needInput => True := by
  have source := p.advance_source p.atEnd
  rw [advanced] at source
  cases reads with
  | onward progress q going => rcases going with rfl | rfl <;> trivial
  | failed error q exceeds full =>
    obtain ⟨first, rest, some, exceeds⟩ :=
      exceeds (p.source.upTo n) fun empty => absurd empty waits
    exact .failed error q first rest some exceeds fun number same => (full number same).append _
  | row q whole taken split first room =>
    refine .row q whole within taken ?_ (fun later => first later fun empty => absurd empty waits)
      (room waits)
    rw [textTo, textTo, split, source, List.append_assoc]
  | dataEnd q past ended nothing none =>
    have before : Within p n := Within.of_advance (by rw [advanced]; exact within)
    have past' := before.upTo_nil ended
    have used : q.textTo n = [] := by rw [textTo, past.empty, source, past', List.append_nil]
    have whole : p.textTo n = p.window.pending := by rw [textTo, past', List.append_nil]
    refine .noMore q (Or.inr past) used (past.ahead_nil.trans ?_) ?_
    · rw [whole, nothing]
    · rw [whole]
      exact fun _ some => absurd none some

theorem SeekStops.sought {result : Except Error StepOutcome × Parser} (stops : SeekStops p result)
    (within : Within result.2 n) (stands : Stands p n) :
    Sought p p.ahead n (p.textTo n) result := by
  have before := stops.within within
  have reads := stands.advance
  cases stops with
  | noInput used ended =>
    have used' : p.textTo n = [] := by rw [textTo, used, before.upTo_nil ended, List.append_nil]
    exact .noMore p (Or.inl stands.toCoherent) used' (by rw [used'])
      (by rw [used']; exact fun some => absurd rfl some)
  | unread error q open_ used filled =>
    obtain ⟨⟨detail, rfl, scheduled⟩, -⟩ := unread_of_fill filled
    exact .unread detail q scheduled
  | failed error q waits advanced | row q waits advanced | dataEnd q waits advanced =>
    rw [advanced] at reads
    exact reads.sought advanced waits within

theorem seekRow_reads (p : Parser) (within : Within p.seekRow.2 n) (stands : Stands p n) :
    Sought p p.ahead n (p.textTo n) p.seekRow := by
  obtain ⟨r, turns, stops⟩ := p.seekRow_turns
  -- How long the input is shows at the end, so what agrees there is carried back over the turns.
  obtain ⟨stands', taken, split, took⟩ := turns.stands (stops.within within) stands
  rw [split]
  exact (stops.sought within stands').of_took took turns.moves.continues

/-! ## The byte-order mark -/

/-- Nothing has been taken from the input yet. -/
structure Untouched (p : Parser) : Prop extends Coherent p where
  unchecked : p.markChecked = false
  rows : p.rows = 0
  none : p.hasRecord = false
  front : p.window.filled = p.window.pending.length

theorem Untouched.recycled (untouched : Untouched p) : p.window.recycled = p.window := by
  unfold Window.recycled
  split
  · rename_i empty
    have none : p.window.filled = 0 := by
      rw [untouched.front, List.isEmpty_iff.mp empty, List.length_nil]
    rw [← none]
  · rfl

theorem Filling.untouched (filling : Filling p q) (untouched : Untouched p) : Untouched q := by
  have recycled := untouched.recycled
  have filled := p.fill_cases
  rw [filling.filled] at filled
  cases filled with
  | ok bytes source read front offset =>
    refine { untouched with front := ?_ }
    show p.window.recycled.filled + bytes.length = (p.window.recycled.pending ++ bytes).length
    rw [recycled, List.length_append, untouched.front]

theorem Fillings.untouched (fillings : Fillings p q) (untouched : Untouched p) : Untouched q := by
  induction fillings with
  | refl => exact untouched
  | tail _ filling ih => exact filling.untouched ih

theorem Fillings.keeps (fillings : Fillings p q) :
    q.tokenizer = p.tokenizer ∧ q.buffer = p.buffer := by
  induction fillings with
  | refl => exact ⟨rfl, rfl⟩
  | @tail r q _ filling ih =>
    have same : q = r.fill.2 := (congrArg Prod.snd filling.filled).symm
    obtain ⟨atEnd, filled⟩ := r.fill_eq
    rw [same, filled]
    exact ih

theorem Fillings.textTo (fillings : Fillings p q) (within : Within q n) :
    q.textTo n = p.textTo n := by
  induction fillings with
  | refl => rfl
  | tail _ filling ih => exact (filling.textTo within).trans (ih (filling.within within))

theorem startsWithMark_of_enough {part : Bytes} (enough : byteOrderMark.length ≤ part.length)
    (later : Bytes) : startsWithMark (part ++ later) = startsWithMark part := by
  match part, enough with
  | a :: b :: c :: rest, _ => rfl

theorem Untouched.skipMark (untouched : Untouched p) {later : Bytes}
    (enough : later = [] ∨ byteOrderMark.length ≤ p.window.pending.length) :
    p.skipMark.window.pending ++ later = withoutMark (p.window.pending ++ later) := by
  have whole : startsWithMark (p.window.pending ++ later) = startsWithMark p.window.pending := by
    rcases enough with none | enough
    · rw [none, List.append_nil]
    · exact startsWithMark_of_enough enough _
  have position : p.window.position = 0 := by
    rw [Window.position, untouched.front, Nat.sub_self]
  unfold withoutMark
  rw [whole]
  unfold Parser.skipMark Window.skipMark
  simp only [untouched.rows, position, decide_true, Bool.true_and, ↓reduceIte]
  cases found : startsWithMark p.window.pending with
  | false => rfl
  | true =>
    obtain ⟨rest, same⟩ := (startsWithMark_iff _).mp found
    simp only [↓reduceIte]
    rw [same]
    rfl

/-- Between two calls `text` is what the records to come are made of. The byte-order mark in front
of the whole input may still have to be left out of it. -/
inductive Awaits (p : Parser) (n : Nat) (text : Bytes) : Prop where
  | fresh (untouched : Untouched p) (same : withoutMark (p.textTo n) = text)
      (single : startsWithMark (text.dropWhile Byte.isLineBreak) = false)
  | standing (stands : Stands p n) (checked : p.markChecked = true) (same : p.textTo n = text)

inductive Marked (p : Parser) (n : Nat) (text : Bytes) : Except Error Unit × Parser → Prop where
  | ok (q : Parser) (coherent : Coherent q) (checked : q.markChecked = true)
      (same : q.textTo n = text) (ahead : q.ahead = p.ahead) (tokenizer : q.tokenizer = p.tokenizer)
      (buffer : q.buffer = p.buffer) : Marked p n text (.ok (), q)
  | unread (detail : String) (q : Parser) (scheduled : .failed detail ∈ p.source.reads) :
      Marked p n text (.error (.io detail), q)

theorem Untouched.checkMark (untouched : Untouched p) (within : Within p.checkMark.2 n) :
    Marked p n (withoutMark (p.textTo n)) p.checkMark := by
  unfold Parser.checkMark at within ⊢
  obtain ⟨q, fillings, stops⟩ := p.fillMark_fillings
  have continues := fillings.turns.moves.continues
  rw [untouched.unchecked, if_neg Bool.false_ne_true] at within ⊢
  rcases result : p.fillMark with ⟨outcome, r⟩
  rw [result] at stops within
  cases stops with
  | unread error r open_ short filled =>
    obtain ⟨⟨detail, rfl, scheduled⟩, -⟩ := unread_of_fill filled
    exact .unread detail r (continues.reads.mem scheduled)
  | enough enough =>
    have within' : Within q n := { within with }
    have later := fillings.untouched untouched
    -- The window is full enough to tell, or it holds all there is.
    have enough' : q.source.upTo n = [] ∨ byteOrderMark.length ≤ q.window.pending.length := by
      rcases enough with ended | enough
      · exact Or.inl (within'.upTo_nil ended)
      · rw [← later.front]
        exact Or.inr enough
    have none : q.skipMark.hasRecord = false := later.none
    obtain ⟨tokenizer, buffer⟩ := fillings.keeps
    refine .ok q.skipMark { later.toCoherent with } rfl ?_ (funext fun text => ?_) tokenizer buffer
    · rw [← fillings.textTo within']
      exact later.skipMark enough'
    · rw [ahead_of_noRecord none, ahead_of_noRecord untouched.none,
        show q.skipMark.tokenizer = p.tokenizer from tokenizer]

theorem checkMark_reads (p : Parser) (within : Within p.checkMark.2 n) (awaits : Awaits p n text) :
    Marked p n text p.checkMark ∧ Unmarked p text := by
  cases awaits with
  | standing stands checked same =>
    rw [checkMark, if_pos checked]
    exact ⟨.ok p stands.toCoherent checked same rfl rfl rfl, same ▸ stands.unmarked⟩
  | fresh untouched same single =>
    rw [← same] at single ⊢
    exact ⟨untouched.checkMark within, fun _ => single⟩

end Parser

end Tabular.Csv
