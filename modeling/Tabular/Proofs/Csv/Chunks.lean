import Tabular.Proofs.Csv.Reading

/-!
Reading in pieces. A source that is sound brings all of its bytes in the end unless a read fails.
How many it brings at once decides when a record is completed and never what it is.
-/
namespace Tabular

def ReadEvent.isSound : ReadEvent → Bool
  | .atMost count => count != 0
  | .interrupted => true
  | .failed _ => true

/-- The read does not fail, and brings something if anything is left. -/
def ReadEvent.isSteady : ReadEvent → Bool
  | .atMost count => count != 0
  | .interrupted => true
  | .failed _ => false

namespace Source

/-- Every read that is to come and does not fail brings something as long as anything is left. -/
def Sound (s : Source) : Prop := ∀ event ∈ s.reads, event.isSound = true

def Steady (s : Source) : Prop := ∀ event ∈ s.reads, event.isSteady = true

instance (s : Source) : Decidable s.Steady :=
  inferInstanceAs (Decidable (∀ event ∈ s.reads, event.isSteady = true))

theorem Steady.sound {s : Source} (steady : s.Steady) : s.Sound := by
  intro event member
  have first := steady event member
  cases event with
  | atMost count => exact first
  | interrupted => rfl
  | failed detail => rfl

theorem Steady.not_failed {s : Source} (steady : s.Steady) {detail : String}
    (scheduled : .failed detail ∈ s.reads) : False :=
  Bool.false_ne_true (steady _ scheduled)

theorem readBy_sound (s : Source) (count : Nat) (events : List ReadEvent)
    (sound : ∀ event ∈ events, event.isSound = true) (asks : 0 < count)
    (nothing : (s.readBy count events).1 = .ok []) : s.rest = [] := by
  induction events with
  | nil =>
    rcases List.take_eq_nil_iff.mp (Except.ok.inj nothing) with zero | none
    · omega
    · exact none
  | cons event later ih =>
    have first := sound event List.mem_cons_self
    cases event with
    | atMost limit =>
      have positive : limit ≠ 0 := by simpa [ReadEvent.isSound] using first
      rcases List.take_eq_nil_iff.mp (Except.ok.inj nothing) with zero | none
      · omega
      · exact none
    | interrupted =>
      exact ih (fun event member => sound event (List.mem_cons_of_mem _ member)) nothing
    | failed detail => cases nothing

end Source

end Tabular

namespace Tabular.Csv

/-- A window in which nothing waits, or too little to tell a byte-order mark by, has room left once
its used bytes are forgotten, and what a refill asks for is never nothing. -/
theorem Window.recycled_request_pos {w : Window} {chunk : Nat} (usable : 0 < chunk)
    (room : byteOrderMark.length ≤ w.capacity)
    (short : w.pending = [] ∨ w.filled < byteOrderMark.length) :
    0 < w.recycled.request chunk := by
  have mark : 0 < byteOrderMark.length := by decide
  have left : w.recycled.filled < w.capacity := by
    unfold recycled
    split
    · exact Nat.lt_of_lt_of_le mark room
    · rename_i waits
      rcases short with empty | few
      · exact absurd (List.isEmpty_iff.mpr empty) waits
      · exact Nat.lt_of_lt_of_le few room
  rw [request, recycled_capacity]
  omega

namespace Parser

/-- The parse can read on, and what it knows of its source is so. -/
structure Supplied (p : Parser) : Prop where
  ended : p.atEnd = true → p.source.rest = []
  sound : p.source.Sound
  chunk : 0 < p.options.readChunk
  room : byteOrderMark.length ≤ p.window.capacity
  bufferSize : p.buffer.capacity = p.options.bufferSize

variable {p q : Parser}

theorem Supplied.asks (supplied : Supplied p)
    (short : p.window.pending = [] ∨ p.window.filled < byteOrderMark.length) :
    0 < p.window.recycled.request p.options.readChunk :=
  Window.recycled_request_pos supplied.chunk supplied.room short

theorem Supplied.fill (supplied : Supplied p)
    (short : p.window.pending = [] ∨ p.window.filled < byteOrderMark.length) :
    Supplied p.fill.2 := by
  have continues := (Move.fill p).continues
  have filled := p.fill_cases
  rcases result : p.fill with ⟨outcome, q⟩
  rw [result] at continues filled
  have sound : q.source.Sound := fun event member =>
    supplied.sound event (continues.reads.subset member)
  cases filled with
  | ok bytes source read front offset =>
    refine { supplied with
      sound
      room := by simpa using supplied.room
      ended := ?_ }
    intro ended
    rcases Bool.or_eq_true_iff.mp ended with before | none
    · have nothing := supplied.ended before
      rw [front] at nothing
      exact (List.append_eq_nil_iff.mp nothing).2
    · rw [List.isEmpty_iff.mp none] at read front
      have nothing := p.source.readBy_sound _ p.source.reads supplied.sound (supplied.asks short)
        (congrArg Prod.fst read)
      rw [nothing] at front
      exact front.symm
  | failed detail source scheduled rest offset =>
    exact { supplied with
      sound
      room := by simpa using supplied.room
      ended := fun ended => rest.trans (supplied.ended ended) }

theorem Supplied.advance (supplied : Supplied p) (atEnd : Bool) :
    Supplied (p.advance atEnd).2 := by
  have continues := (p.advance_moves atEnd).continues
  refine ⟨?_, ?_, ?_, ?_, ?_⟩
  · simpa using supplied.ended
  · simpa using supplied.sound
  · rw [continues.options]
    exact supplied.chunk
  · rw [continues.windowCapacity]
    exact supplied.room
  · rw [continues.bufferCapacity, continues.options]
    exact supplied.bufferSize

theorem Turn.supplied (turn : Turn p q) (supplied : Supplied p) : Supplied q := by
  cases turn with
  | fill filling =>
    have later := supplied.fill filling.short
    rw [filling.filled] at later
    exact later
  | advance progress waits advanced =>
    have later := supplied.advance p.atEnd
    rw [advanced] at later
    exact later

theorem Turns.supplied (turns : Turns p q) (supplied : Supplied p) : Supplied q := by
  induction turns with
  | refl => exact supplied
  | tail _ turn ih => exact turn.supplied ih

theorem Supplied.seekRow (supplied : Supplied p) : Supplied p.seekRow.2 := by
  obtain ⟨q, turns, stops⟩ := p.seekRow_turns
  have before := turns.supplied supplied
  rcases result : p.seekRow with ⟨outcome, r⟩
  rw [result] at stops
  cases stops with
  | noInput used ended => exact before
  | unread error r open_ used filled =>
    have later := before.fill (Or.inl used)
    rw [filled] at later
    exact later
  | failed error r waits advanced | row r waits advanced | dataEnd r waits advanced =>
    have later := before.advance q.atEnd
    rw [advanced] at later
    exact later

theorem Supplied.skipMark (supplied : Supplied p) : Supplied p.skipMark :=
  { supplied with
    room := supplied.room.trans_eq (Move.skipMark p).continues.windowCapacity.symm }

theorem Supplied.checkMark (supplied : Supplied p) : Supplied p.checkMark.2 := by
  obtain ⟨q, fillings, stops⟩ := p.fillMark_fillings
  have before := fillings.turns.supplied supplied
  unfold Parser.checkMark
  split
  · exact supplied
  · rcases result : p.fillMark with ⟨outcome, r⟩
    rw [result] at stops
    cases stops with
    | enough enough => exact before.skipMark
    | unread error r open_ short filled =>
      have later := before.fill (Or.inr short)
      rw [filled] at later
      exact later

theorem within_extent (ended : p.atEnd = true → p.source.rest = []) : Within p p.source.extent where
  offset_le := Nat.le_add_right _ _
  ended atEnd := by rw [Source.extent, ended atEnd, List.length_nil, Nat.add_zero]

def toCome (p : Parser) : Bytes := p.window.pending ++ p.source.rest

@[simp] theorem textTo_extent (p : Parser) : p.textTo p.source.extent = p.toCome := by
  simp [textTo, toCome]

structure Feeding (p : Parser) : Prop extends Supplied p where
  steady : p.source.Steady

end Parser

end Tabular.Csv
