import Tabular.Byte

/-!
A field tokenizer that can be fed its input in pieces. It undoes quoting, copies the text of
one field at a time to an output of limited size, and says why it stopped.
-/
namespace Tabular.Csv

inductive TokenState where
  | recordStart
  | inField
  | inQuoted
  /-- After a quote inside a quoted field: it either closes the quotes or is the first half
  of a doubled quote. -/
  | afterQuote
  | fieldEnd
  | recordEnd
  deriving DecidableEq, Repr, Inhabited

namespace TokenState

def isFinal : TokenState → Bool
  | .fieldEnd | .recordEnd => true
  | _ => false

/-- No record has been begun, so the end of the data may come here. -/
def isBetweenRecords : TokenState → Bool
  | .recordStart | .recordEnd => true
  | _ => false

/-- The first byte of a field. A quote is tested before the delimiter, and the delimiter
before the line breaks. -/
def openField (delimiter b : UInt8) : TokenState × Bool :=
  if b = Byte.quote then (.inQuoted, false)
  else if b = delimiter then (.fieldEnd, false)
  else if Byte.isLineBreak b then (.recordEnd, false)
  else (.inField, true)

/-- The first byte of a record. Blank lines vanish here. -/
def openRecord (delimiter b : UInt8) : TokenState × Bool :=
  if Byte.isLineBreak b then (.recordStart, false) else openField delimiter b

def plain (delimiter b : UInt8) : TokenState × Bool :=
  if b = delimiter then (.fieldEnd, false)
  else if Byte.isLineBreak b then (.recordEnd, false)
  else (.inField, true)

def step (delimiter : UInt8) : TokenState → UInt8 → TokenState × Bool
  | .recordStart, b | .recordEnd, b => openRecord delimiter b
  | .fieldEnd, b => openField delimiter b
  | .inField, b => plain delimiter b
  | .inQuoted, b => if b = Byte.quote then (.afterQuote, false) else (.inQuoted, true)
  | .afterQuote, b => if b = Byte.quote then (.inQuoted, true) else plain delimiter b

end TokenState

structure Scan where
  state : TokenState
  rest : Bytes
  out : Array UInt8

/-- Consume bytes until a field ends, the input is used up, or the output has grown to
`capacity`. Even a byte that writes nothing waits for room. -/
def scan (delimiter : UInt8) (capacity : Nat) : TokenState → Bytes → Array UInt8 → Scan
  | state, [], out => ⟨state, [], out⟩
  | state, b :: rest, out =>
      if out.size < capacity then
        let (next, keep) := state.step delimiter b
        let out := if keep then out.push b else out
        if next.isFinal then ⟨next, rest, out⟩ else scan delimiter capacity next rest out
      else ⟨state, b :: rest, out⟩

theorem scan_length_le (delimiter : UInt8) (capacity : Nat) (state : TokenState) (input : Bytes)
    (out : Array UInt8) : (scan delimiter capacity state input out).rest.length ≤ input.length := by
  induction input generalizing state out with
  | nil => simp [scan]
  | cons b rest ih =>
    unfold scan
    split
    · dsimp only
      split
      · simp
      · exact Nat.le_succ_of_le (ih _ _)
    · simp

theorem scan_length_lt (delimiter : UInt8) (capacity : Nat) (state : TokenState) (input : Bytes)
    (out : Array UInt8) (some_input : input ≠ []) (room : out.size < capacity) :
    (scan delimiter capacity state input out).rest.length < input.length := by
  cases input with
  | nil => exact absurd rfl some_input
  | cons b rest =>
    unfold scan
    rw [if_pos room]
    dsimp only
    split
    · simp
    · exact Nat.lt_succ_of_le (scan_length_le ..)

inductive FieldResult where
  | field (endsRecord : Bool)
  | inputUsed
  | noRoom
  | dataEnd
  deriving DecidableEq, Repr

structure Tokenizer where
  delimiter : UInt8
  state : TokenState := .recordStart
  /-- Some input has been offered before, so a byte-order mark would be data now. -/
  started : Bool := false
  deriving DecidableEq, Repr, Inhabited

namespace Tokenizer

/-- The input less a byte-order mark that lies whole in the very first slice. -/
def withoutMark (t : Tokenizer) (input : Bytes) : Bytes :=
  if !t.started && startsWithMark input then input.drop 3 else input

def classify (state : TokenState) (rest : Bytes) (full : Bool) : FieldResult :=
  match state with
  | .recordEnd => .field true
  | .fieldEnd => .field false
  | _ => if !rest.isEmpty && full then .noRoom else .inputUsed

structure Reading where
  result : FieldResult
  tokenizer : Tokenizer
  rest : Bytes
  out : Array UInt8

/-- Read on in the current field. An empty slice means that the data has ended: an open record
is closed, and otherwise there is nothing more. The text of the field is appended to `out`. -/
def readField (t : Tokenizer) (input : Bytes) (capacity : Nat) (out : Array UInt8) : Reading :=
  let input := t.withoutMark input
  if input.isEmpty then
    if t.state.isBetweenRecords then
      ⟨.dataEnd, { t with state := .recordStart, started := true }, [], out⟩
    else ⟨.field true, { t with state := .recordEnd, started := true }, [], out⟩
  else if out.size < capacity then
    let reached := scan t.delimiter capacity t.state input out
    ⟨classify reached.state reached.rest (capacity ≤ reached.out.size),
      { t with state := reached.state, started := true }, reached.rest, reached.out⟩
  else ⟨.noRoom, { t with started := true }, input, out⟩

@[simp] theorem readField_delimiter (t : Tokenizer) (input : Bytes) (capacity : Nat)
    (out : Array UInt8) :
    (t.readField input capacity out).tokenizer.delimiter = t.delimiter := by
  grind [readField]

theorem withoutMark_length_le (t : Tokenizer) (input : Bytes) :
    (t.withoutMark input).length ≤ input.length := by
  unfold withoutMark
  split <;> simp

/-- What is left to do in a slice: two for each byte, and one for a record that the end of the
data would still close. -/
def work (t : Tokenizer) (input : Bytes) : Nat :=
  2 * input.length + if t.state.isBetweenRecords then 0 else 1

/-- Unless it finds no room or the end of the data, every call of the tokenizer leaves less to
do: it takes input, or closes a record when there is none. -/
theorem work_readField_lt (t : Tokenizer) (input : Bytes) (capacity : Nat) (out : Array UInt8)
    (goes_on : (t.readField input capacity out).result ≠ .dataEnd)
    (fits : (t.readField input capacity out).result ≠ .noRoom) :
    (t.readField input capacity out).tokenizer.work (t.readField input capacity out).rest <
      t.work input := by
  have shorter := t.withoutMark_length_le input
  unfold readField at goes_on fits ⊢
  dsimp only at goes_on fits ⊢
  split at goes_on
  · rename_i empty
    rw [if_pos empty] at fits ⊢
    cases between : t.state.isBetweenRecords with
    | true => simp [between] at goes_on
    | false =>
      simp only [between, work, List.length_nil, Bool.false_eq_true, ↓reduceIte]
      simp only [TokenState.isBetweenRecords, ↓reduceIte]
      omega
  · rename_i nonempty
    rw [if_neg nonempty] at fits ⊢
    split at fits
    · rename_i room
      rw [if_pos room]
      have taken := scan_length_lt t.delimiter capacity t.state (t.withoutMark input) out
        (fun none => nonempty (by simp [none])) room
      simp only [work]
      split <;> split <;> omega
    · simp at fits

end Tokenizer

end Tabular.Csv
