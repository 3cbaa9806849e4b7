import Tabular.Proofs.Csv.Generations

/-!
What a parse does to its two buffers, and with the places in them. Each part of a parse that takes
one place from another, cuts a piece out of a buffer or has one read into says so here, and the
parse is run again with every one of these tested before it happens. The tested run comes to
nothing if one of them fails; until then it does what the parse does.
-/
namespace Tabular.Csv

/-- One use of places in a buffer. -/
inductive Access where
  /-- One place or length is taken from another. -/
  | less (amount total : Nat)
  /-- The piece between two places of a buffer is looked at or moved. -/
  | piece (start stop size : Nat)
  /-- The piece between two places of a buffer is handed out to be read into. To hand out nothing
  would make every read look like the end of the data. -/
  | room (start stop size : Nat)

/-- Nothing goes below zero, and a piece lies in its buffer. -/
def Access.isSound : Access → Bool
  | .less amount total => amount ≤ total
  | .piece start stop size => start ≤ stop && stop ≤ size
  | .room start stop size => start < stop && stop ≤ size

def require (accesses : List Access) : Option Unit :=
  if accesses.all Access.isSound then some () else none

theorem require_eq {accesses : List Access} (sound : ∀ access ∈ accesses, access.isSound = true) :
    require accesses = some () := if_pos (List.all_eq_true.mpr sound)

example : require [.room 3 3 3] = none := by decide

theorem of_require {α : Type} {accesses : List Access} {next : Unit → Option α} {result : α}
    (tested : (require accesses >>= next) = some result) : next () = some result := by
  obtain ⟨_, -, rest⟩ := Option.bind_eq_some_iff.mp tested
  exact rest

namespace Parser

/-! ## What each part of a parse uses -/

def waiting (p : Parser) : Access :=
  .piece p.window.position (p.window.position + p.window.pending.length) p.window.capacity

/-- Beginning a generation moves what is live behind the last record to the front. -/
def beginAccesses (p : Parser) : List Access :=
  .piece p.rowStart p.buffer.live.size p.buffer.capacity ::
    .less p.rowStart p.buffer.live.size :: .less p.rowStart p.fieldStart ::
    p.spans.toList.map fun span => .less p.rowStart span.offset

/-- Reading on hands out as much of the window as it asks for, behind what it is filled with. -/
def fillAccesses (p : Parser) : List Access :=
  let w := p.window.recycled
  [.room w.filled (w.filled + w.request p.options.readChunk) w.capacity]

def skipMarkAccesses (p : Parser) : List Access := [.piece 0 p.window.filled p.window.capacity]

/-- The tokenizer is given the bytes that wait and all of the row buffer behind the live bytes. -/
def tokenizeAccesses (p : Parser) : List Access :=
  [p.waiting, .piece p.buffer.live.size p.buffer.capacity p.buffer.capacity]

def endCellAccesses (p : Parser) : List Access := [.less p.fieldStart p.buffer.live.size]

def advanceAccesses (p : Parser) (atEnd : Bool) : List Access :=
  p.waiting ::
    match p.openCell atEnd with
    | (false, _) => []
    | (true, p) =>
      p.tokenizeAccesses ++
        match p.tokenize with
        | (.field _, p) => p.endCellAccesses
        | (.inputUsed, _) | (.noRoom, _) | (.dataEnd, _) => []

/-- The cells of the record that is handed over are pieces of its text, which is what is live. -/
def deliverAccesses (p : Parser) : List Access :=
  let row := p.completedRow
  .piece 0 row.text.size p.buffer.capacity ::
    row.spans.toList.map fun span => .piece span.offset span.stop row.text.size

/-! ## Tested runs -/

/-- `fillMark`, if every access of it is sound. The other functions are tested in the same way. -/
def fillMark? (p : Parser) : Option (Except Error Unit × Parser) :=
  if _ended : p.atEnd = true then some (.ok (), p)
  else if p.window.filled < byteOrderMark.length then do
    require p.fillAccesses
    match _filled : p.fill with
    | (.error error, q) => some (.error error, q)
    | (.ok (), q) => q.fillMark?
  else some (.ok (), p)
termination_by p.work
decreasing_by
  have less := p.work_fill_lt (by simpa using _ended)
  rw [_filled] at less
  exact less rfl

def checkMark? (p : Parser) : Option (Except Error Unit × Parser) :=
  if p.markChecked then some (.ok (), p)
  else do
    match ← p.fillMark? with
    | (.error error, p) => some (.error error, p)
    | (.ok (), p) =>
      require p.skipMarkAccesses
      some (.ok (), p.skipMark)

def seekRow? (p : Parser) : Option (Except Error StepOutcome × Parser) :=
  if _waits : p.window.pending.isEmpty = true then
    if _ended : p.atEnd = true then some (.ok .noMoreInput, p)
    else do
      require p.fillAccesses
      match _filled : p.fill with
      | (.error error, q) => some (.error error, q)
      | (.ok (), q) => q.seekRow?
  else do
    require (p.advanceAccesses p.atEnd)
    match _advanced : p.advance p.atEnd with
    | (.error error, q) => some (.error error, q)
    | (.ok .row, q) => some (.ok .row, q)
    | (.ok .dataEnd, q) => some (.ok .noMoreInput, q)
    | (.ok .field, q) => q.seekRow?
    | (.ok .needInput, q) => q.seekRow?
termination_by p.work
decreasing_by
  · have less := p.work_fill_lt (by simpa using _ended)
    rw [_filled] at less
    exact less rfl
  all_goals
    have less := p.work_advance_lt _ (Or.inl fun none => _waits (by simp [none])) _
      (by rw [_advanced]) (by simp)
    rw [_advanced] at less
    exact less

def flushRow? (p : Parser) : Option (Except Error StepOutcome × Parser) := do
  require (p.advanceAccesses true)
  match _advanced : p.advance true with
  | (.error error, q) => some (.error error, q)
  | (.ok .row, q) => some (.ok .row, q)
  | (.ok .dataEnd, q) => some (.ok .noMoreInput, q)
  | (.ok .field, q) => q.flushRow?
  | (.ok .needInput, q) => q.flushRow?
termination_by p.bufferedWork
decreasing_by
  all_goals
    have less := p.bufferedWork_advance_lt true (Or.inr rfl) _ (by rw [_advanced]) (by simp)
    rw [_advanced] at less
    exact less

variable {β : Type}

def step? (handler : RowHandler β) (p : Parser) (s : β) :
    Option (Except Error StepOutcome × Parser × β) := do
  match ← p.checkMark? with
  | (.error error, p) => some (.error error, p, s)
  | (.ok (), p) =>
    match ← p.seekRow? with
    | (.error error, p) => some (.error error, p, s)
    | (.ok .noMoreInput, p) => some (.ok .noMoreInput, p, s)
    | (.ok .row, p) =>
      require p.deliverAccesses
      match handler p.completedRow s with
      | (.error error, s) => some (.error error, p.afterRow, s)
      | (.ok (), s) => some (.ok .row, p.afterRow, s)

theorem flushRow_of_tested {p : Parser} {result : Except Error StepOutcome × Parser}
    (tested : p.flushRow? = some result) : p.flushRow = result := by
  fun_induction flushRow p with
  | case1 p error q advanced | case2 p q advanced | case3 p q advanced =>
    rw [flushRow?] at tested
    have rest := of_require tested
    split at rest <;> rename_i again <;> cases advanced.symm.trans again
    exact Option.some.inj rest
  | case4 p q advanced ih | case5 p q advanced ih =>
    rw [flushRow?] at tested
    have rest := of_require tested
    split at rest <;> rename_i again <;> cases advanced.symm.trans again
    exact ih rest

def flush? (handler : RowHandler β) (p : Parser) (s : β) :
    Option (Except Error Unit × Parser × β) :=
  match _found : p.flushRow? with
  | none => none
  | some (.error error, q) => some (.error error, q, s)
  | some (.ok .noMoreInput, q) => some (.ok (), q, s)
  | some (.ok .row, q) => do
    require q.deliverAccesses
    match handler q.completedRow s with
    | (.error error, s) => some (.error error, q.afterRow, s)
    | (.ok (), s) => q.afterRow.flush? handler s
termination_by p.bufferedWork
decreasing_by
  have found := flushRow_of_tested _found
  have less := p.bufferedWork_flushRow_lt (by rw [found])
  rw [found] at less
  exact less

def parseMore? (handler : RowHandler β) (p : Parser) (s : β) :
    Option (Except Error StepOutcome × Parser × β) :=
  match p.status with
  | .failed description => some (.error (.parse description), p, s)
  | .finished | .exhausted => some (.ok .noMoreInput, p, s)
  | .ready => do
    require p.beginAccesses
    match ← p.beginGeneration.step? handler s with
    | (.error error, p, s) => some (.error error, { p with status := .failed error.message }, s)
    | (.ok .noMoreInput, p, s) => some (.ok .noMoreInput, { p with status := .exhausted }, s)
    | (.ok .row, p, s) => some (.ok .row, p, s)

def finish? (handler : RowHandler β) (p : Parser) (s : β) :
    Option (Except Error Unit × Parser × β) :=
  match p.status with
  | .finished => some (.ok (), p, s)
  | .failed description => some (.error (.parse description), p, s)
  | .ready | .exhausted => do
    require p.beginAccesses
    require (if p.markChecked then [] else p.beginGeneration.skipMarkAccesses)
    match ← p.atFinish.flush? handler s with
    | (.error error, p, s) => some (.error error, { p with status := .failed error.message }, s)
    | (.ok (), p, s) => some (.ok (), { p with status := .finished }, s)

def Call.run? (call : Call β) (state : Parser × β) : Option (Parser × β) :=
  match call with
  | .parseMore handler => (state.1.parseMore? handler state.2).map Prod.snd
  | .finish handler => (state.1.finish? handler state.2).map Prod.snd

def runCalls? (calls : List (Call β)) (state : Parser × β) : Option (Parser × β) :=
  calls.foldlM (fun state call => call.run? state) state

end Parser

end Tabular.Csv
