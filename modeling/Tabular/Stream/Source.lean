import Tabular.Byte
import Tabular.Error

/-!
A byte source that is read in pieces and can be set back to its start. How much each read
brings, and which reads and seeks fail, follows a schedule fixed in advance, so that every
finite behaviour of a reader is one value of this type.
-/
namespace Tabular

/-- What one read does before the source behaves as an ordinary file again. -/
inductive ReadEvent where
  | atMost (count : Nat)
  | interrupted
  | failed (detail : String)
  deriving DecidableEq, Repr

structure Source where
  /-- All bytes of the source. -/
  content : Bytes
  /-- How many bytes lie before the reading position. -/
  offset : Nat := 0
  /-- The bytes from the reading position on. -/
  rest : Bytes
  /-- The next reads; once it is used up, reads bring as much as they may. -/
  reads : List ReadEvent := []
  /-- The next seeks, a text making one fail; once it is used up, seeks succeed. -/
  seeks : List (Option String) := []
  deriving Repr, Inhabited

namespace Source

def ofBytes (content : Bytes) (reads : List ReadEvent := []) (seeks : List (Option String) := []) :
    Source :=
  { content, rest := content, reads, seeks }

/-- A source that cannot be read. Its first read fails, after which nobody reads on. -/
def unreadable (detail : String) : Source :=
  { content := [], rest := [], reads := [.failed detail] }

def take (s : Source) (count : Nat) : Bytes × Source :=
  let bytes := s.rest.take count
  (bytes, { s with offset := s.offset + bytes.length, rest := s.rest.drop count })

/-- Follow the schedule `reads` for a read of up to `count` bytes. Interrupted reads are
tried again. -/
def readBy (s : Source) (count : Nat) : List ReadEvent → Except Error Bytes × Source
  | [] =>
      let (bytes, s) := s.take count
      (.ok bytes, { s with reads := [] })
  | .atMost limit :: later =>
      let (bytes, s) := s.take (min limit count)
      (.ok bytes, { s with reads := later })
  | .interrupted :: later => s.readBy count later
  | .failed detail :: later => (.error (.io detail), { s with reads := later })

/-- Read up to `count` bytes. No bytes mean the end of the data. -/
def read (s : Source) (count : Nat) : Except Error Bytes × Source := s.readBy count s.reads

def rewind (s : Source) : Except Error Unit × Source :=
  match s.seeks with
  | some detail :: later => (.error (.io detail), { s with seeks := later })
  | _ => (.ok (), { s with offset := 0, rest := s.content, seeks := s.seeks.tail })

/-- The bytes behind the source were replaced while it was open; the reading position stays
where it was. -/
def rewritten (s : Source) (content : Bytes) : Source :=
  { s with content, rest := content.drop s.offset }

theorem readBy_rest (s : Source) (count : Nat) (events : List ReadEvent) (bytes : Bytes)
    (read : (s.readBy count events).1 = .ok bytes) :
    s.rest = bytes ++ (s.readBy count events).2.rest := by
  induction events with
  | nil =>
    simp only [readBy, take, Except.ok.injEq] at read ⊢
    rw [← read, List.take_append_drop]
  | cons event later ih =>
    cases event with
    | atMost limit =>
      simp only [readBy, take, Except.ok.injEq] at read ⊢
      rw [← read, List.take_append_drop]
    | interrupted => exact ih read
    | failed detail => simp [readBy] at read

theorem read_rest (s : Source) (count : Nat) (bytes : Bytes)
    (read : (s.read count).1 = .ok bytes) : s.rest = bytes ++ (s.read count).2.rest :=
  s.readBy_rest count s.reads bytes read

end Source

end Tabular
