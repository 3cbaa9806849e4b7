import Tabular.Csv.Parser

/-!
Why the loops of the parser end. What is left to do is counted in the bytes of the source, the
bytes that wait, the record that the end of the data would close, and the end of the source
not yet seen; every turn of a loop makes it less.
-/
namespace Tabular.Csv.Parser

def bufferedWork (p : Parser) : Nat := p.tokenizer.work p.window.pending

/-- What is left to do until no more input can come. -/
def work (p : Parser) : Nat :=
  3 * p.source.rest.length + p.bufferedWork + if p.atEnd then 0 else 1

theorem skipBlankLines_length_le (p : Parser) :
    p.skipBlankLines.window.pending.length ≤ p.window.pending.length := by
  unfold skipBlankLines Window.skipLineBreaks
  dsimp only
  split
  · exact (List.dropWhile_suffix _).length_le
  · exact Nat.le_refl _

theorem skipBlankLines_length_lt (p : Parser) (some_input : p.window.pending ≠ [])
    (emptied : p.skipBlankLines.window.pending = []) :
    p.skipBlankLines.window.pending.length < p.window.pending.length := by
  rw [emptied]
  exact List.length_pos_iff.mpr some_input

@[simp] theorem openCell_source (p : Parser) (atEnd : Bool) :
    (p.openCell atEnd).2.source = p.source := by
  grind [openCell, skipBlankLines]

@[simp] theorem openCell_atEnd (p : Parser) (atEnd : Bool) :
    (p.openCell atEnd).2.atEnd = p.atEnd := by
  grind [openCell, skipBlankLines]

@[simp] theorem openCell_tokenizer (p : Parser) (atEnd : Bool) :
    (p.openCell atEnd).2.tokenizer = p.tokenizer := by
  grind [openCell, skipBlankLines]

/-- Opening a cell takes nothing but line breaks. -/
theorem openCell_length_le (p : Parser) (atEnd : Bool) :
    (p.openCell atEnd).2.window.pending.length ≤ p.window.pending.length := by
  have shorter := p.skipBlankLines_length_le
  unfold openCell
  split
  · exact Nat.le_refl _
  · dsimp only
    split <;> exact shorter

theorem openCell_length_lt (p : Parser) (atEnd : Bool)
    (waits : p.window.pending ≠ [] ∨ atEnd = true) (refused : (p.openCell atEnd).1 = false) :
    (p.openCell atEnd).2.window.pending.length < p.window.pending.length := by
  unfold openCell at refused ⊢
  dsimp only at refused ⊢
  split at refused
  · simp at refused
  · rename_i closed
    rw [if_neg closed]
    split at refused
    · rename_i emptied
      rw [if_pos emptied]
      simp only [Bool.and_eq_true, List.isEmpty_iff, Bool.not_eq_true'] at emptied
      refine p.skipBlankLines_length_lt ?_ emptied.1.2
      rcases waits with waits | ended
      · exact waits
      · simp [ended] at emptied
    · simp at refused

@[simp] theorem tokenize_source (p : Parser) : p.tokenize.2.source = p.source := rfl

@[simp] theorem tokenize_atEnd (p : Parser) : p.tokenize.2.atEnd = p.atEnd := rfl

theorem bufferedWork_tokenize_lt (p : Parser) (goes_on : p.tokenize.1 ≠ .dataEnd)
    (fits : p.tokenize.1 ≠ .noRoom) : p.tokenize.2.bufferedWork < p.bufferedWork :=
  p.tokenizer.work_readField_lt _ _ _ goes_on fits

@[simp] theorem endCell_source (p : Parser) : p.endCell.2.source = p.source := by
  grind [endCell]

@[simp] theorem endCell_atEnd (p : Parser) : p.endCell.2.atEnd = p.atEnd := by
  grind [endCell]

@[simp] theorem endCell_bufferedWork (p : Parser) : p.endCell.2.bufferedWork = p.bufferedWork := by
  grind [endCell, bufferedWork]

@[simp] theorem advance_source (p : Parser) (atEnd : Bool) :
    (p.advance atEnd).2.source = p.source := by
  grind [advance, openCell_source, tokenize_source, endCell_source]

@[simp] theorem advance_atEnd (p : Parser) (atEnd : Bool) :
    (p.advance atEnd).2.atEnd = p.atEnd := by
  grind [advance, openCell_atEnd, tokenize_atEnd, endCell_atEnd]

/-- Every turn that neither fails nor meets the end of the data leaves less to do, provided
that some input waits or its end is known. -/
theorem bufferedWork_advance_lt (p : Parser) (atEnd : Bool)
    (waits : p.window.pending ≠ [] ∨ atEnd = true) (progress : Progress)
    (advanced : (p.advance atEnd).1 = .ok progress) (goes_on : progress ≠ .dataEnd) :
    (p.advance atEnd).2.bufferedWork < p.bufferedWork := by
  have same := p.openCell_tokenizer atEnd
  have shorter := p.openCell_length_le atEnd
  have refusal := p.openCell_length_lt atEnd waits
  unfold advance at advanced ⊢
  cases opened : p.openCell atEnd with
  | mk open_ q =>
    rw [opened] at advanced same shorter refusal
    dsimp only at same shorter refusal
    have less : q.bufferedWork ≤ p.bufferedWork := by
      unfold bufferedWork Tokenizer.work
      rw [same]
      omega
    cases open_ with
    | false =>
      have := refusal rfl
      show q.bufferedWork < p.bufferedWork
      unfold bufferedWork Tokenizer.work
      rw [same]
      omega
    | true =>
      dsimp only at advanced ⊢
      have decrease := q.bufferedWork_tokenize_lt
      cases read : q.tokenize with
      | mk result r =>
        rw [read] at advanced decrease
        have kept := r.endCell_bufferedWork
        cases result with
        | inputUsed => exact Nat.lt_of_lt_of_le (decrease (by simp) (by simp)) less
        | noRoom => cases advanced
        | dataEnd =>
          simp only [Except.ok.injEq] at advanced
          exact absurd advanced.symm goes_on
        | field endsRecord =>
          dsimp only at advanced ⊢
          have below : r.bufferedWork < p.bufferedWork :=
            Nat.lt_of_lt_of_le (decrease (by simp) (by simp)) less
          split <;> rename_i ended <;> rw [ended] at kept <;> dsimp only at kept ⊢ <;> omega

theorem work_advance_lt (p : Parser) (atEnd : Bool)
    (waits : p.window.pending ≠ [] ∨ atEnd = true) (progress : Progress)
    (advanced : (p.advance atEnd).1 = .ok progress) (goes_on : progress ≠ .dataEnd) :
    (p.advance atEnd).2.work < p.work := by
  simpa [work] using p.bufferedWork_advance_lt atEnd waits progress advanced goes_on

theorem work_fill_lt (p : Parser) (open_ : p.atEnd = false) (filled : p.fill.1 = .ok ()) :
    p.fill.2.work < p.work := by
  have front := p.source.read_rest (p.window.recycled.request p.options.readChunk)
  unfold fill Window.refill at filled ⊢
  dsimp only at filled ⊢
  cases read : p.source.read (p.window.recycled.request p.options.readChunk) with
  | mk outcome source =>
    rw [read] at front filled
    cases outcome with
    | error error => simp at filled
    | ok bytes =>
      have split_rest := front bytes rfl
      have total : p.source.rest.length = bytes.length + source.rest.length := by
        rw [split_rest, List.length_append]
      cases bytes with
      | nil =>
        simp only [work, bufferedWork, Tokenizer.work, Window.append_pending,
          Window.recycled_pending, open_, List.isEmpty_nil, List.append_nil, Bool.or_true,
          ↓reduceIte, Bool.false_eq_true]
        simp only [List.length_nil] at total
        omega
      | cons b rest =>
        simp only [work, bufferedWork, Tokenizer.work, Window.append_pending,
          Window.recycled_pending, open_, List.isEmpty_cons, Bool.or_false, List.length_append,
          Bool.false_eq_true, ↓reduceIte]
        simp only [List.length_cons] at total ⊢
        omega

theorem work_skipMark_le (p : Parser) : p.skipMark.work ≤ p.work := by
  unfold skipMark work bufferedWork Tokenizer.work Window.skipMark
  dsimp only
  split
  · split
    · simp only [List.length_drop]
      omega
    · omega
  · omega

@[simp] theorem work_beginGeneration (p : Parser) : p.beginGeneration.work = p.work := rfl

end Tabular.Csv.Parser
