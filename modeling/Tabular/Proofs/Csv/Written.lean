import Mathlib.Algebra.GroupWithZero.Nat
import Tabular.Csv.Writer

/-!
What a writer puts out. As long as there is room, a cell comes out as the encoding that is given
of it at once, however many pieces it is written in, and the encoders are left as they were found.
-/
namespace Tabular

namespace Output

def HasRoom (o : Output) (bytes : Bytes) : Prop := ∀ room, o.room = some room → bytes.length ≤ room

def extended (o : Output) (bytes : Bytes) : Output :=
  { o with
    written := o.written.appendList bytes
    room := o.room.map fun room => room - bytes.length }

theorem write_of_room {o : Output} {bytes : Bytes} (room : o.HasRoom bytes) :
    o.write bytes = (.ok (), o.extended bytes) := by
  unfold write extended
  cases limit : o.room with
  | none => rfl
  | some left =>
    dsimp only
    rw [if_pos (room left limit)]
    rfl

@[simp] theorem extended_bytes (o : Output) (bytes : Bytes) :
    (o.extended bytes).bytes = o.bytes ++ bytes := by
  simp only [Output.bytes, extended, Array.appendList_eq_append, Array.toList_appendList]

@[simp] theorem extended_extended (o : Output) (first second : Bytes) :
    (o.extended first).extended second = o.extended (first ++ second) := by
  unfold extended
  congr 1
  · apply Array.toList_inj.mp
    simp only [Array.appendList_eq_append, Array.toList_appendList, List.append_assoc]
  · cases o.room with
    | none => rfl
    | some left =>
      simp only [Option.map_some, List.length_append, Option.some.injEq]
      omega

@[simp] theorem extended_nil (o : Output) : o.extended [] = o := by
  unfold extended
  cases o with
  | mk written room fullDetail flushFailure =>
    congr 1
    cases room <;> rfl

theorem HasRoom.left {o : Output} {first second : Bytes} (room : o.HasRoom (first ++ second)) :
    o.HasRoom first := by
  intro left limit
  have whole := room left limit
  rw [List.length_append] at whole
  omega

theorem HasRoom.right {o : Output} {first second : Bytes} (room : o.HasRoom (first ++ second)) :
    (o.extended first).HasRoom second := by
  intro left limit
  simp only [extended, Option.map_eq_some_iff] at limit
  obtain ⟨before, limit, rfl⟩ := limit
  have whole := room before limit
  rw [List.length_append] at whole
  omega

end Output

namespace Csv

/-! ## Pieces of a field -/

theorem copyDoubling_text (text : Bytes) (room : Nat) :
    (copyDoubling text room).1 ++ (copyDoubling text room).2.flatMap doubled =
      text.flatMap doubled := by
  induction text generalizing room with
  | nil => rfl
  | cons b rest ih =>
    unfold copyDoubling
    split
    · rw [List.flatMap_cons, ← ih (room - (doubled b).length), List.append_assoc]
    · rfl

def FieldEncoder.body (e : FieldEncoder) (text : Bytes) : Bytes :=
  if e.quoting then text.flatMap doubled else text

theorem FieldEncoder.copy_body (e : FieldEncoder) (text : Bytes) (room : Nat) :
    (e.copy text room).out ++ e.body (e.copy text room).rest = e.body text ∧
      (e.copy text room).encoder = e := by
  unfold copy body
  cases e.quoting with
  | true => exact ⟨copyDoubling_text text room, rfl⟩
  | false => exact ⟨List.take_append_drop room text, rfl⟩

@[simp] theorem FieldEncoder.body_nil (e : FieldEncoder) : e.body [] = [] := by
  unfold body
  split <;> rfl

namespace Writer

def wrote (w : Writer) (bytes : Bytes) : Writer :=
  { w with out := w.out.extended bytes, rowBytes := w.rowBytes + bytes.length }

theorem put_of_room {w : Writer} {bytes : Bytes} (room : w.out.HasRoom bytes) :
    w.put bytes = (.ok (), { w with out := w.out.extended bytes }) := by
  rw [put, Output.write_of_room room]

theorem putText_of_room {w : Writer} {bytes : Bytes} (room : w.out.HasRoom bytes) :
    w.putText bytes = (.ok (), w.wrote bytes) := by
  rw [putText, put_of_room room]
  rfl

@[simp] theorem wrote_wrote (w : Writer) (first second : Bytes) :
    (w.wrote first).wrote second = w.wrote (first ++ second) := by
  unfold wrote
  simp [Nat.add_assoc]

@[simp] theorem encoder_withEncoder (w : Writer) (forced : Bool) (e : FieldEncoder) :
    (w.withEncoder forced e).encoder forced = e := by
  cases forced <;> rfl

@[simp] theorem withEncoder_encoder (w : Writer) (forced : Bool) :
    w.withEncoder forced (w.encoder forced) = w := by
  cases forced <;> rfl

@[simp] theorem withEncoder_out (w : Writer) (forced : Bool) (e : FieldEncoder) :
    (w.withEncoder forced e).out = w.out := by
  cases forced <;> rfl

@[simp] theorem encoder_wrote (w : Writer) (bytes : Bytes) (forced : Bool) :
    (w.wrote bytes).encoder forced = w.encoder forced := rfl

theorem field_within {w : Writer} {forced : Bool} (text : Bytes)
    (within : (w.encoder forced).inField = true)
    (room : w.out.HasRoom ((w.encoder forced).body text)) :
    w.field forced text = (.ok (), w.wrote ((w.encoder forced).body text)) := by
  obtain ⟨parts, same⟩ := (w.encoder forced).copy_body text w.scratch.size
  have piece : (w.encoder forced).encode text w.scratch.size =
      (w.encoder forced).copy text w.scratch.size := by
    rw [FieldEncoder.encode, if_pos within]
  rw [← parts] at room
  rw [field, piece, same, withEncoder_encoder, putText_of_room room.left]
  dsimp only
  split
  · rename_i used
    rw [used, FieldEncoder.body_nil, List.append_nil] at parts
    rw [parts]
  · rename_i more
    -- A piece takes some of the text, since there is room for a doubled quote at least.
    have shorter : ((w.encoder forced).copy text w.scratch.size).rest.length < text.length :=
      (w.encoder forced).copy_rest_lt _ _ (Nat.le_of_succ_le w.scratch.wide) more
    have rest := field_within (w := w.wrote ((w.encoder forced).copy text w.scratch.size).out)
      ((w.encoder forced).copy text w.scratch.size).rest within room.right
    simp [rest, parts]
termination_by text.length

/-! ## Cells -/

structure Clean (w : Writer) : Prop where
  necessary : w.necessary = { always := false }
  always : w.always = { always := true }

theorem Clean.encoder {w : Writer} (clean : Clean w) (forced : Bool) :
    w.encoder forced = { always := forced } := by
  cases forced with
  | false => exact clean.necessary
  | true => exact clean.always

def begun (forced : Bool) (text : Bytes) : FieldEncoder :=
  { always := forced, inField := true, quoting := forced || needsQuotes text }

theorem field_writes {w : Writer} (clean : Clean w) {forced : Bool} {text : Bytes}
    (room : w.out.HasRoom ((if (begun forced text).quoting then [Byte.quote] else []) ++
      (begun forced text).body text)) :
    w.field forced text = (.ok (), (w.withEncoder forced (begun forced text)).wrote
      ((if (begun forced text).quoting then [Byte.quote] else []) ++
        (begun forced text).body text)) := by
  -- The encoder leaves one byte of the scratch to the opening quote.
  obtain ⟨size, encoded⟩ : ∃ size,
      (w.encoder forced).encode text w.scratch.size =
        { encoder := begun forced text
          out := (if (begun forced text).quoting then [Byte.quote] else []) ++
            ((begun forced text).copy text size).out
          rest := ((begun forced text).copy text size).rest } := by
    rw [clean.encoder, FieldEncoder.encode]
    cases quoting : forced || needsQuotes text with
    | false =>
      refine ⟨w.scratch.size, ?_⟩
      simp only [begun, quoting, Bool.false_eq_true, ↓reduceIte, Bool.not_false, List.nil_append]
      rfl
    | true =>
      refine ⟨w.scratch.size - 1, ?_⟩
      have some : w.scratch.size ≠ 0 := by
        have wide := w.scratch.wide
        omega
      simp only [begun, quoting, Bool.false_eq_true, ↓reduceIte, Bool.not_true, some]
      rfl
  obtain ⟨parts, -⟩ := (begun forced text).copy_body text size
  rw [← parts, ← List.append_assoc] at room
  rw [field, encoded]
  dsimp only
  rw [putText_of_room (by simp; exact room.left)]
  dsimp only
  split
  · rename_i used
    rw [used, FieldEncoder.body_nil, List.append_nil] at parts
    rw [parts]
  · have within : ((w.withEncoder forced (begun forced text)).wrote
        ((if (begun forced text).quoting then [Byte.quote] else []) ++
          ((begun forced text).copy text size).out)).encoder forced = begun forced text :=
      encoder_withEncoder w forced _
    rw [field_within _ (by rw [within]; rfl)
      (by rw [within, wrote, withEncoder_out]; exact room.right), within, wrote_wrote,
      List.append_assoc, parts]

theorem closeField_writes {w : Writer} (clean : Clean w) {forced : Bool} {text before : Bytes}
    (room : w.out.HasRoom (before ++ if forced || needsQuotes text then [Byte.quote] else [])) :
    ((w.withEncoder forced (begun forced text)).wrote before).closeField forced =
      (.ok (), w.wrote (before ++ if forced || needsQuotes text then [Byte.quote] else [])) := by
  have closed : (begun forced text).close = (({ always := forced } : FieldEncoder),
      if forced || needsQuotes text then [Byte.quote] else []) := by
    unfold FieldEncoder.close begun
    cases forced || needsQuotes text <;> rfl
  have restored : ((w.withEncoder forced (begun forced text)).wrote before).withEncoder forced
      { always := forced } = w.wrote before := by
    have same := w.withEncoder_encoder forced
    rw [clean.encoder] at same
    cases forced with
    | false =>
      rw [← same]
      rfl
    | true =>
      rw [← same]
      rfl
  rw [closeField, encoder_wrote, encoder_withEncoder, closed]
  dsimp only
  rw [restored, putText_of_room room.right, wrote_wrote]

def parting (cells : Nat) : Bytes := if cells = 0 then [] else [Byte.comma]

theorem cell_writes {w : Writer} (clean : Clean w) (text : Bytes) (forced : Bool)
    (room : w.out.HasRoom (parting w.cells ++ Encoding.cell ⟨text, forced⟩)) :
    w.cell text forced = (.ok (), { w with
      out := w.out.extended (parting w.cells ++ Encoding.cell ⟨text, forced⟩)
      cells := w.cells + 1
      rowBytes := w.rowBytes + (Encoding.cell ⟨text, forced⟩).length }) := by
  have encoded : Encoding.cell ⟨text, forced⟩ =
      ((if (begun forced text).quoting then [Byte.quote] else []) ++
        (begun forced text).body text) ++
        if forced || needsQuotes text then [Byte.quote] else [] := by
    unfold Encoding.cell FieldEncoder.body begun
    cases forced || needsQuotes text with
    | false => simp only [Bool.false_eq_true, ↓reduceIte, List.nil_append, List.append_nil]
    | true => rfl
  have separated : w.separate = (.ok (), { w with out := w.out.extended (parting w.cells) }) := by
    unfold separate parting
    split
    · simp
    · rename_i more
      have first := room.left
      rw [parting, if_neg more] at first
      exact put_of_room first
  have clean' : Clean { w with
      out := w.out.extended (parting w.cells), cells := w.cells + 1 } :=
    ⟨clean.necessary, clean.always⟩
  have rest := room.right
  rw [encoded] at rest ⊢
  rw [cell, separated]
  dsimp only
  rw [field_writes clean' rest.left]
  dsimp only
  rw [closeField_writes clean' rest]
  unfold wrote
  simp

/-! ## Rows -/

/-- The cells of a row behind `count` others, each with its comma. -/
def laidOut (count : Nat) : Record → Bytes
  | [] => []
  | c :: rest => parting count ++ Encoding.cell c ++ laidOut (count + 1) rest

theorem laidOut_eq (r : Record) : laidOut 0 r = Encoding.cells r := by
  have behind : ∀ (rest : Record) (count : Nat), laidOut (count + 1) rest =
      (rest.map fun c => Byte.comma :: Encoding.cell c).flatten := by
    intro rest
    induction rest with
    | nil => intro count; rfl
    | cons c rest ih =>
      intro count
      rw [laidOut, ih, List.map_cons, List.flatten_cons]
      rfl
  have joined : ∀ (first : Bytes) (rest : List Bytes), [Byte.comma].intercalate (first :: rest) =
      first ++ (rest.map fun text => Byte.comma :: text).flatten := by
    intro first rest
    induction rest generalizing first with
    | nil => simp [List.intercalate]
    | cons next rest ih =>
      rw [List.intercalate_cons_cons, ih]
      simp
  cases r with
  | nil => rfl
  | cons c rest =>
    rw [laidOut, behind, Encoding.cells, List.map_cons, joined, List.map_map]
    rfl

def rowSize (r : Record) : Nat := (r.map fun c => (Encoding.cell c).length).sum

/-- What stands in the place of a row that would come out as a blank line. -/
def filling (r : Record) : Bytes :=
  if r.length = 1 && (Encoding.cells r).isEmpty then Encoding.quoted [] else []

theorem row_eq (r : Record) :
    Encoding.row r = Encoding.cells r ++ (filling r ++ [Byte.lineFeed]) := by
  unfold Encoding.row filling
  split
  · rename_i blank
    simp only [Bool.and_eq_true, List.isEmpty_iff] at blank
    rw [blank.2, List.nil_append]
  · rw [List.nil_append]

structure Behind (w : Writer) (r : Record) : Prop where
  cells : w.cells = r.length
  rowBytes : w.rowBytes = rowSize r

theorem Behind.blank {w : Writer} {r : Record} (behind : Behind w r) :
    (w.cells = 1 && w.rowBytes = 0 : Bool) = (r.length = 1 && (Encoding.cells r).isEmpty : Bool) := by
  rw [behind.cells, behind.rowBytes]
  match r with
  | [] => rfl
  | [c] =>
    have single : Encoding.cells [c] = Encoding.cell c := by
      rw [← laidOut_eq, laidOut, laidOut, List.append_nil]
      rfl
    rw [single]
    have size : rowSize [c] = (Encoding.cell c).length := Nat.add_zero _
    rw [size]
    cases Encoding.cell c with
    | nil => rfl
    | cons b rest => simp
  | _ :: _ :: _ => simp

theorem endRow_writes {w : Writer} {r : Record} (behind : Behind w r)
    (room : w.out.HasRoom (filling r ++ [Byte.lineFeed])) :
    w.endRow = (.ok (), { w with
      out := w.out.extended (filling r ++ [Byte.lineFeed]), cells := 0, rowBytes := 0 }) := by
  have filled : w.fillBlankRow = (.ok (), { w with out := w.out.extended (filling r) }) := by
    have first := room.left
    unfold filling at first ⊢
    unfold fillBlankRow
    rw [behind.blank]
    split
    · rename_i blank
      rw [if_pos blank] at first
      exact put_of_room first
    · simp
  rw [endRow, filled]
  dsimp only
  rw [put_of_room room.right]
  dsimp only
  simp

end Writer

end Csv

end Tabular
