import Tabular.Csv.Grammar
import Tabular.Csv.Tokenizer

/-!
A cell read in parts. Wherever the tokenizer stands within a cell, the text still to come holds
the rest of the cell, and a scan of the first part of that text takes a first part of the rest.
So it makes no difference to a cell where the parts of its text were cut.
-/
namespace Tabular.Csv

def TokenState.isWithinCell : TokenState → Bool
  | .inField | .inQuoted | .afterQuote => true
  | _ => false

namespace Grammar

def quotedRest (delimiter : UInt8) (text : Bytes) : Bytes × Bytes :=
  let inside := quotedText text
  let behind := plainText delimiter inside.2
  (inside.1 ++ behind.1, behind.2)

/-- The rest of a cell from where the tokenizer stands, and what follows the cell. Between cells
that is the whole of the next one. -/
def resume (delimiter : UInt8) : TokenState → Bytes → Bytes × Bytes
  | .inField, text => plainText delimiter text
  | .inQuoted, text => quotedRest delimiter text
  | .afterQuote, text =>
      if text.head? = some Byte.quote then
        (Byte.quote :: (quotedRest delimiter text.tail).1, (quotedRest delimiter text.tail).2)
      else plainText delimiter text
  | .recordStart, text | .fieldEnd, text | .recordEnd, text =>
      ((cell delimiter text).1.bytes, (cell delimiter text).2)

theorem plainText_cons_end {delimiter b : UInt8} (ends : endsCell delimiter b = true)
    (text : Bytes) : plainText delimiter (b :: text) = ([], b :: text) := by
  simp only [plainText, List.takeWhile_cons, List.dropWhile_cons, ends, Bool.not_true,
    Bool.false_eq_true, ↓reduceIte]

theorem plainText_cons_more {delimiter b : UInt8} (more : endsCell delimiter b = false)
    (text : Bytes) :
    plainText delimiter (b :: text) =
      (b :: (plainText delimiter text).1, (plainText delimiter text).2) := by
  simp only [plainText, List.takeWhile_cons, List.dropWhile_cons, more, Bool.not_false,
    ↓reduceIte]

theorem quotedText_cons {b : UInt8} (other : b ≠ Byte.quote) (text : Bytes) :
    quotedText (b :: text) = (b :: (quotedText text).1, (quotedText text).2) := by
  cases text with
  | nil => simp only [quotedText, if_neg other]
  | cons next rest => rw [quotedText, if_neg other]

theorem quotedRest_cons {b : UInt8} (delimiter : UInt8) (other : b ≠ Byte.quote) (text : Bytes) :
    quotedRest delimiter (b :: text) =
      (b :: (quotedRest delimiter text).1, (quotedRest delimiter text).2) := by
  simp only [quotedRest, quotedText_cons other, List.cons_append]

@[simp] theorem quotedRest_quote (delimiter : UInt8) (text : Bytes) :
    quotedRest delimiter (Byte.quote :: text) = resume delimiter .afterQuote text := by
  cases text with
  | nil => rfl
  | cons next rest =>
    by_cases again : next = Byte.quote
    · simp only [quotedRest, quotedText, resume, again, List.head?_cons, List.tail_cons,
        ↓reduceIte, List.cons_append]
    · simp only [quotedRest, quotedText, resume, List.head?_cons, Option.some.injEq, if_neg again,
        ↓reduceIte, List.nil_append]

theorem cell_cons_plain {b : UInt8} (delimiter : UInt8) (other : b ≠ Byte.quote) (text : Bytes) :
    cell delimiter (b :: text) =
      ({ bytes := (plainText delimiter (b :: text)).1, quoted := false },
        (plainText delimiter (b :: text)).2) := by
  simp only [cell, if_neg other]

@[simp] theorem cell_quoted (delimiter : UInt8) (text : Bytes) :
    (cell delimiter text).1.quoted = (text.head? == some Byte.quote) := by
  cases text with
  | nil => rfl
  | cons b rest =>
    by_cases quote : b = Byte.quote
    · subst quote
      rfl
    · rw [cell_cons_plain delimiter quote]
      simp only [List.head?_cons]
      exact (beq_eq_false_iff_ne.mpr fun same => quote (Option.some.inj same)).symm

@[simp] theorem resume_nil (delimiter : UInt8) (state : TokenState) :
    resume delimiter state [] = ([], []) := by
  cases state <;> rfl

end Grammar

open Grammar

/-- What a byte does to the cell it is read in, whatever follows: it ends the cell and is left for
the next one, or the tokenizer stays within the cell, having kept the byte or not. -/
def TokenState.Reads (delimiter : UInt8) (state : TokenState) (b : UInt8)
    (after : TokenState × Bool) : Prop :=
  (after.1.isFinal = true ∧ after.2 = false ∧ (after.1 = .fieldEnd ↔ b = delimiter) ∧
      ∀ text, resume delimiter state (b :: text) = ([], b :: text)) ∨
    (after.1.isWithinCell = true ∧ ∀ text,
      resume delimiter state (b :: text) =
        ((if after.2 then [b] else []) ++ (resume delimiter after.1 text).1,
          (resume delimiter after.1 text).2))

theorem reads_plain (delimiter : UInt8) (state : TokenState) (b : UInt8)
    (outside : ∀ text, resume delimiter state (b :: text) = plainText delimiter (b :: text)) :
    state.Reads delimiter b (TokenState.plain delimiter b) := by
  unfold TokenState.plain TokenState.Reads
  by_cases parts : b = delimiter
  · have ends : endsCell delimiter b = true := by simp [endsCell, parts]
    rw [if_pos parts]
    exact Or.inl ⟨rfl, rfl, by simp [parts],
      fun text => (outside text).trans (plainText_cons_end ends text)⟩
  · rw [if_neg parts]
    by_cases breaks : Byte.isLineBreak b = true
    · have ends : endsCell delimiter b = true := by simp [endsCell, breaks]
      rw [if_pos breaks]
      exact Or.inl ⟨rfl, rfl, by simp [parts],
        fun text => (outside text).trans (plainText_cons_end ends text)⟩
    · have more : endsCell delimiter b = false := by simp [endsCell, parts, breaks]
      rw [if_neg breaks]
      exact Or.inr ⟨rfl, fun text => (outside text).trans (plainText_cons_more more text)⟩

theorem reads_openField (delimiter : UInt8) (state : TokenState) (b : UInt8)
    (between : ∀ text, resume delimiter state (b :: text) =
      ((cell delimiter (b :: text)).1.bytes, (cell delimiter (b :: text)).2)) :
    state.Reads delimiter b (TokenState.openField delimiter b) := by
  by_cases quote : b = Byte.quote
  · subst quote
    exact Or.inr ⟨rfl, between⟩
  · have same : TokenState.openField delimiter b = TokenState.plain delimiter b := by
      rw [TokenState.openField, if_neg quote, TokenState.plain]
    rw [same]
    apply reads_plain
    intro text
    rw [between, cell_cons_plain delimiter quote]

/-- One byte of a cell, provided that it is no line break in front of a record. -/
theorem reads_step (delimiter : UInt8) (state : TokenState) (b : UInt8)
    (begun : state.isBetweenRecords = true → Byte.isLineBreak b = false) :
    state.Reads delimiter b (state.step delimiter b) := by
  cases state with
  | recordStart =>
    rw [TokenState.step, TokenState.openRecord, if_neg (by simp [begun rfl])]
    exact reads_openField delimiter _ b fun _ => rfl
  | recordEnd =>
    rw [TokenState.step, TokenState.openRecord, if_neg (by simp [begun rfl])]
    exact reads_openField delimiter _ b fun _ => rfl
  | fieldEnd => exact reads_openField delimiter _ b fun _ => rfl
  | inField => exact reads_plain delimiter _ b fun _ => rfl
  | inQuoted =>
    rw [TokenState.step]
    by_cases quote : b = Byte.quote
    · subst quote
      exact Or.inr ⟨rfl, quotedRest_quote delimiter⟩
    · rw [if_neg quote]
      exact Or.inr ⟨rfl, quotedRest_cons delimiter quote⟩
  | afterQuote =>
    rw [TokenState.step]
    by_cases quote : b = Byte.quote
    · subst quote
      exact Or.inr ⟨rfl, fun _ => rfl⟩
    · rw [if_neg quote]
      apply reads_plain
      intro text
      rw [resume, List.head?_cons, if_neg (by simp [quote])]

theorem TokenState.isBetweenRecords_of_within {state : TokenState}
    (within : state.isWithinCell = true) : state.isBetweenRecords = false := by
  cases state <;> first | rfl | cases within

theorem TokenState.isFinal_of_within {state : TokenState} (within : state.isWithinCell = true) :
    state.isFinal = false := by
  cases state <;> first | rfl | cases within

/-- What a scan of a part of a text makes of a cell, whatever follows. It takes a first part of the
bytes and keeps some of them as the first of the rest of the cell. Even the last byte that it takes
finds room. Either it has come to the byte that ends the cell, or the tokenizer is within the cell
and the part is used up or the room is. -/
structure ScanReads (delimiter : UInt8) (capacity : Nat) (state : TokenState) (part : Bytes)
    (out : Array UInt8) (taken kept : Bytes) (reached : Scan) : Prop where
  split : part = taken ++ reached.rest
  out_eq : reached.out.toList = out.toList ++ kept
  roomy : taken ≠ [] → ∃ before, resume delimiter state taken.dropLast = (before, []) ∧
    out.size + before.length < capacity
  ends_or_within :
    (reached.state.isFinal = true ∧ taken ≠ [] ∧ reached.out.size < capacity ∧
        ∃ b, (reached.state = .fieldEnd ↔ b = delimiter) ∧
          ∀ later, resume delimiter state (taken ++ later) = (kept, b :: later)) ∨
      (reached.state.isWithinCell = true ∧
        (reached.rest = [] ∨ capacity ≤ reached.out.size) ∧
        ∀ later, resume delimiter state (taken ++ later) =
          (kept ++ (resume delimiter reached.state later).1,
            (resume delimiter reached.state later).2))

theorem scan_byte (delimiter : UInt8) (capacity : Nat) (state : TokenState) (b : UInt8)
    (rest : Bytes) (out : Array UInt8) (room : out.size < capacity)
    (begun : state.isBetweenRecords = true → Byte.isLineBreak b = false)
    (onward : ∀ (next : TokenState) (out : Array UInt8), next.isWithinCell = true →
      ∃ taken kept, ScanReads delimiter capacity next rest out taken kept
        (scan delimiter capacity next rest out)) :
    ∃ taken kept, taken ≠ [] ∧ ScanReads delimiter capacity state (b :: rest) out taken kept
      (scan delimiter capacity state (b :: rest) out) := by
  unfold scan
  rw [if_pos room]
  have byte := reads_step delimiter state b begun
  have first : ∃ before, resume delimiter state [] = (before, []) ∧
      out.size + before.length < capacity := ⟨[], resume_nil delimiter state, room⟩
  rcases stepped : state.step delimiter b with ⟨next, keep⟩
  rw [stepped] at byte
  rcases byte with ⟨final, drops, parts, reading⟩ | ⟨inside, reading⟩
  · simp only at final drops parts reading
    simp only [final, drops, Bool.false_eq_true, ↓reduceIte]
    exact ⟨[b], [], List.cons_ne_nil _ _, rfl, by simp, fun _ => first,
      Or.inl ⟨final, List.cons_ne_nil _ _, room, b, parts, reading⟩⟩
  · simp only at inside reading
    simp only [TokenState.isFinal_of_within inside, Bool.false_eq_true, ↓reduceIte]
    obtain ⟨taken, kept, split, outEq, roomy, reads⟩ :=
      onward next (if keep then out.push b else out) inside
    refine ⟨b :: taken, (if keep then [b] else []) ++ kept, List.cons_ne_nil _ _, ?_, ?_, ?_, ?_⟩
    · rw [List.cons_append, ← split]
    · rw [outEq]
      cases keep <;> simp
    · -- The last byte is this one, or it was taken later.
      intro _
      by_cases none : taken = []
      · rw [none]
        exact first
      · obtain ⟨before, more, fits⟩ := roomy none
        refine ⟨(if keep then [b] else []) ++ before, ?_, ?_⟩
        · rw [List.dropLast_cons_of_ne_nil none, reading, more]
        · cases keep <;> simp at fits ⊢ <;> omega
    · rcases reads with ⟨final, -, room, c, parts, more⟩ | ⟨inner, stopped, more⟩
      · exact Or.inl ⟨final, List.cons_ne_nil _ _, room, c, parts, fun later => by
          rw [List.cons_append, reading, more]⟩
      · exact Or.inr ⟨inner, stopped, fun later => by
          rw [List.cons_append, reading, more, List.append_assoc]⟩

theorem scan_within (delimiter : UInt8) (capacity : Nat) (state : TokenState)
    (part : Bytes) (out : Array UInt8) (within : state.isWithinCell = true) :
    ∃ taken kept, ScanReads delimiter capacity state part out taken kept
      (scan delimiter capacity state part out) := by
  induction part generalizing state out with
  | nil =>
    exact ⟨[], [], rfl, by simp [scan], fun some => absurd rfl some,
      Or.inr ⟨within, Or.inl rfl, fun _ => rfl⟩⟩
  | cons b rest ih =>
    by_cases room : out.size < capacity
    · have begun : state.isBetweenRecords = true → Byte.isLineBreak b = false := by
        intro between
        rw [TokenState.isBetweenRecords_of_within within] at between
        cases between
      obtain ⟨taken, kept, -, reads⟩ := scan_byte _ _ _ _ _ _ room begun ih
      exact ⟨taken, kept, reads⟩
    · unfold scan
      rw [if_neg room]
      exact ⟨[], [], rfl, by simp, fun some => absurd rfl some,
        Or.inr ⟨within, Or.inr (Nat.le_of_not_lt room), fun _ => rfl⟩⟩

/-- A scan that begins a cell, with something to read and room for it, reads a first part of the
cell. -/
theorem scan_begun (delimiter : UInt8) (capacity : Nat) (state : TokenState)
    (part : Bytes) (out : Array UInt8) (something : part ≠ [])
    (room : out.size < capacity)
    (begun : state.isBetweenRecords = true → ∀ b, part.head? = some b → Byte.isLineBreak b = false) :
    ∃ taken kept, taken ≠ [] ∧ ScanReads delimiter capacity state part out taken kept
      (scan delimiter capacity state part out) := by
  cases part with
  | nil => exact absurd rfl something
  | cons b rest =>
    apply scan_byte _ _ _ _ _ _ room
    · intro between
      exact begun between b rfl
    · intro next out inside
      exact scan_within delimiter capacity next rest out inside

end Tabular.Csv
