import Tabular.Csv.Encoding

/-!
The encoder of one field, which writes to a scratch of limited size at a time. It quotes a field
that holds a byte with a meaning of its own, or every field.
-/
namespace Tabular.Csv

/-- Copy text with its quotes doubled into a given room. A doubled quote is never split. The
second part is the text left over. -/
def copyDoubling : Bytes → Nat → Bytes × Bytes
  | [], _ => ([], [])
  | b :: rest, room =>
      if (doubled b).length ≤ room then
        let copied := copyDoubling rest (room - (doubled b).length)
        (doubled b ++ copied.1, copied.2)
      else ([], b :: rest)

theorem copyDoubling_left_le (text : Bytes) (room : Nat) :
    (copyDoubling text room).2.length ≤ text.length := by
  induction text generalizing room with
  | nil => simp [copyDoubling]
  | cons b rest ih =>
    unfold copyDoubling
    split
    · exact Nat.le_succ_of_le (ih _)
    · exact Nat.le_refl _

theorem copyDoubling_left_lt (text : Bytes) (room : Nat) (some_text : text ≠ [])
    (wide : 2 ≤ room) : (copyDoubling text room).2.length < text.length := by
  cases text with
  | nil => exact absurd rfl some_text
  | cons b rest =>
    unfold copyDoubling
    rw [if_pos (Nat.le_trans (doubled_length_le b) wide)]
    exact Nat.lt_succ_of_le (copyDoubling_left_le _ _)

structure FieldEncoder where
  /-- Quote every field, whether it needs quotes or not. -/
  always : Bool
  /-- A field has been begun and not yet closed. -/
  inField : Bool := false
  /-- The field in hand is quoted. -/
  quoting : Bool := false
  deriving DecidableEq, Repr, Inhabited

namespace FieldEncoder

/-- What one call of the encoder came to. The field is complete when no input is left. -/
structure Piece where
  encoder : FieldEncoder
  out : Bytes
  rest : Bytes

def copy (e : FieldEncoder) (input : Bytes) (room : Nat) : Piece :=
  if e.quoting then
    let copied := copyDoubling input room
    ⟨e, copied.1, copied.2⟩
  else ⟨e, input.take room, input.drop room⟩

def encode (e : FieldEncoder) (input : Bytes) (room : Nat) : Piece :=
  if e.inField then e.copy input room
  else
    let quoting := e.always || needsQuotes input
    if !quoting then copy { e with quoting, inField := true } input room
    else if room = 0 then ⟨{ e with quoting }, [], input⟩
    else
      let piece := copy { e with quoting, inField := true } input (room - 1)
      { piece with out := Byte.quote :: piece.out }

def close (e : FieldEncoder) : FieldEncoder × Bytes :=
  if e.inField && e.quoting then ({ e with quoting := false, inField := false }, [Byte.quote])
  else ({ e with inField := false }, [])

theorem copy_rest_lt (e : FieldEncoder) (input : Bytes) (room : Nat) (wide : 2 ≤ room)
    (more : (e.copy input room).rest ≠ []) : (e.copy input room).rest.length < input.length := by
  cases input with
  | nil =>
    unfold copy at more
    split at more <;> simp [copyDoubling] at more
  | cons b rest =>
    unfold copy
    split
    · exact copyDoubling_left_lt _ _ (by simp) wide
    · simp only [List.length_drop, List.length_cons]
      omega

/-- With room for a quote and a doubled quote, every call that leaves input takes some. -/
theorem encode_rest_lt (e : FieldEncoder) (input : Bytes) (room : Nat) (wide : 3 ≤ room)
    (more : (e.encode input room).rest ≠ []) :
    (e.encode input room).rest.length < input.length := by
  unfold encode at more ⊢
  split
  · rename_i inside
    rw [if_pos inside] at more
    exact e.copy_rest_lt _ _ (by omega) more
  · rename_i outside
    rw [if_neg outside] at more
    dsimp only at more ⊢
    split
    · rename_i plain
      rw [if_pos plain] at more
      exact copy_rest_lt _ _ _ (by omega) more
    · rename_i quoted
      rw [if_neg quoted, if_neg (by omega)] at more
      rw [if_neg (by omega)]
      exact copy_rest_lt _ _ _ (by omega) more

end FieldEncoder

end Tabular.Csv
