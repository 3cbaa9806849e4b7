import Tabular.Proofs.Csv.RoundTrip

/-!
One cell of a row. Behind whatever rows and cells a writer has put out, it adds a cell as the encoding
that is given of it at once: no size of the scratch shows in it, and neither does what the encoders
were used for before.
-/
namespace Tabular.Csv

namespace Writer

def textTo (withMark : Bool) (rows : List Record) (begun : Record) : Bytes :=
  Encoding.table withMark rows ++ laidOut 0 begun

theorem laidOut_concat (count : Nat) (begun : Record) (c : Cell) :
    laidOut count (begun ++ [c]) =
      laidOut count begun ++ (parting (count + begun.length) ++ Encoding.cell c) := by
  induction begun generalizing count with
  | nil => exact List.append_nil (parting count ++ Encoding.cell c)
  | cons first rest ih =>
    rw [List.cons_append, laidOut, ih, laidOut, List.length_cons, Nat.add_right_comm,
      ← Nat.add_assoc, List.append_assoc _ (laidOut _ _)]

theorem begun_writes {out : Output} {withMark : Bool} {rows : List Record} {begun : Record}
    (room : out.HasRoom (textTo withMark rows begun)) (scratch : Scratch) :
    ∃ v w, putTable out withMark scratch rows = (.ok (), v) ∧ v.putCells begun = (.ok (), w) ∧
      Clean w ∧ w.out = out.extended (textTo withMark rows begun) ∧ w.cells = begun.length ∧
      w.scratch = scratch := by
  have table := putTable_writes room.left scratch
  have cells := putCells_writes begun
    (w := { out := out.extended (Encoding.table withMark rows), scratch }) ⟨rfl, rfl⟩ room.right
  exact ⟨_, _, table, cells, ⟨rfl, rfl⟩, Output.extended_extended _ _ _, Nat.zero_add _, rfl⟩

end Writer

theorem needsQuotes_iff (text : Bytes) :
    needsQuotes text = true ↔ Byte.comma ∈ text ∨ Byte.quote ∈ text ∨
      Byte.carriageReturn ∈ text ∨ Byte.lineFeed ∈ text := by
  simp only [needsQuotes, Byte.isLineBreak, List.any_eq_true, Bool.or_eq_true, beq_iff_eq]
  constructor
  · rintro ⟨b, member, (rfl | rfl) | rfl | rfl⟩ <;> simp [member]
  · rintro (member | member | member | member) <;> exact ⟨_, member, by simp⟩

/-- As long as its output takes what it writes, a writer adds a cell behind any rows and any cells of
the current one: a comma unless it is the first of its row, and then its text, in quotes and with its
quotes doubled if that is wanted or a byte of the text needs it, and as it is otherwise. Whatever
the size of the scratch, each piece of the text that fills it leaves less to be encoded. -/
theorem cell_appends_encoding (out : Output) (withMark : Bool) (scratch : Scratch)
    (rows : List Record) (begun : Record) (text : Bytes) (forced : Bool)
    (room : out.HasRoom (Writer.textTo withMark rows (begun ++ [⟨text, forced⟩]))) :
    ∃ v w next, Writer.putTable out withMark scratch rows = (.ok (), v) ∧
      v.putCells begun = (.ok (), w) ∧ w.cell text forced = (.ok (), next) ∧
      next.out.bytes = w.out.bytes ++ (if begun = [] then [] else [Byte.comma]) ++
        (if forced = true ∨ Byte.comma ∈ text ∨ Byte.quote ∈ text ∨ Byte.carriageReturn ∈ text ∨
            Byte.lineFeed ∈ text then
          [Byte.quote] ++ text.flatMap (fun b => if b = Byte.quote then [b, b] else [b]) ++
            [Byte.quote]
        else text) ∧
      ∀ (e : FieldEncoder) (input : Bytes), (e.encode input w.scratch.size).rest ≠ [] →
        (e.encode input w.scratch.size).rest.length < input.length := by
  have whole : Writer.textTo withMark rows (begun ++ [⟨text, forced⟩]) =
      Writer.textTo withMark rows begun ++
        (Writer.parting begun.length ++ Encoding.cell ⟨text, forced⟩) := by
    rw [Writer.textTo, Writer.laidOut_concat, ← List.append_assoc, Nat.zero_add]
    rfl
  rw [whole] at room
  obtain ⟨v, w, table, cells, clean, output, count, size⟩ := Writer.begun_writes room.left scratch
  have fits : w.out.HasRoom (Writer.parting w.cells ++ Encoding.cell ⟨text, forced⟩) := by
    rw [output, count]
    exact room.right
  refine ⟨v, w, _, table, cells, Writer.cell_writes clean text forced fits, ?_, ?_⟩
  · have parted : Writer.parting w.cells = if begun = [] then [] else [Byte.comma] := by
      rw [count, Writer.parting]
      simp only [List.length_eq_zero_iff]
    have encoded : Encoding.cell ⟨text, forced⟩ = if forced = true ∨ Byte.comma ∈ text ∨
          Byte.quote ∈ text ∨ Byte.carriageReturn ∈ text ∨ Byte.lineFeed ∈ text then
        [Byte.quote] ++ text.flatMap doubled ++ [Byte.quote] else text := by
      simp only [Encoding.cell, Bool.or_eq_true, needsQuotes_iff]
      rfl
    rw [Output.extended_bytes, parted, encoded, ← List.append_assoc]
    rfl
  · exact fun e input more => e.encode_rest_lt input _ w.scratch.wide more

/-- A doubled quote does not fit into what an opening quote and the text in front of it leave of the
scratch, and the encoder that is used was used for an empty cell before. -/
theorem cell_appends_encoding_past_scratch :
    let text : Bytes := List.replicate 1022 97 ++ [34]
    ∃ v w next, Writer.putTable {} true .standard [[⟨[104], false⟩]] = (.ok (), v) ∧
      v.putCells [⟨[], true⟩] = (.ok (), w) ∧ w.cell text true = (.ok (), next) ∧
      next.out.bytes = w.out.bytes ++ [44] ++
        ([34] ++ (List.replicate 1022 97 ++ [34, 34]) ++ [34]) := by
  intro text
  obtain ⟨v, w, next, table, cells, cell, written, -⟩ := cell_appends_encoding {} true .standard
    [[⟨[104], false⟩]] [⟨[], true⟩] text true (fun room limit => by cases limit)
  refine ⟨v, w, next, table, cells, cell, ?_⟩
  have letters : (List.replicate 1022 (97 : UInt8)).flatMap
      (fun b => if b = Byte.quote then [b, b] else [b]) = List.replicate 1022 97 := by
    rw [List.flatMap_replicate, if_neg (by decide), List.flatten_replicate_singleton]
  rw [written, if_neg (by simp), if_pos (Or.inl rfl), List.flatMap_append, letters]
  rfl

end Tabular.Csv
