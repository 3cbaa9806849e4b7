import Tabular.Proofs.Csv.Indices
import Tabular.Proofs.Csv.Passes
import Tabular.Proofs.Csv.UsedInput

/-!
No pass of a call is idle: it is the last one, or takes bytes that wait, or reads on, or closes the
record in hand when no byte is left. Unless its read is interrupted it leaves less to do.
-/
namespace Tabular.Csv

theorem scan_rest_suffix (delimiter : UInt8) (capacity : Nat) (state : TokenState) (input : Bytes)
    (out : Array UInt8) : (scan delimiter capacity state input out).rest <:+ input := by
  induction input generalizing state out with
  | nil => exact List.suffix_rfl
  | cons b rest ih =>
    unfold scan
    split
    · dsimp only
      split
      · exact List.suffix_cons b rest
      · exact (ih _ _).trans (List.suffix_cons b rest)
    · exact List.suffix_rfl

theorem Tokenizer.withoutMark_suffix (t : Tokenizer) (input : Bytes) :
    t.withoutMark input <:+ input := by
  unfold withoutMark
  split
  · exact List.drop_suffix 3 input
  · exact List.suffix_rfl

theorem Tokenizer.readField_rest_suffix (t : Tokenizer) (input : Bytes) (capacity : Nat)
    (out : Array UInt8) : (t.readField input capacity out).rest <:+ input := by
  have behind := t.withoutMark_suffix input
  unfold readField
  dsimp only
  split
  · split <;> exact List.nil_suffix
  · split
    · exact (scan_rest_suffix ..).trans behind
    · exact behind

theorem Tokenizer.readField_length_lt (t : Tokenizer) {input : Bytes} {capacity : Nat}
    {out : Array UInt8} (given : input ≠ [])
    (fits : (t.readField input capacity out).result ≠ .noRoom) :
    (t.readField input capacity out).rest.length < input.length := by
  have shorter := t.withoutMark_length_le input
  unfold readField at fits ⊢
  dsimp only at fits ⊢
  by_cases empty : (t.withoutMark input).isEmpty = true
  · rw [if_pos empty]
    split <;> exact List.length_pos_iff.mpr given
  · rw [if_neg empty] at fits ⊢
    by_cases room : out.size < capacity
    · rw [if_pos room]
      exact Nat.lt_of_lt_of_le (scan_length_lt t.delimiter capacity t.state (t.withoutMark input)
        out (by simpa using empty) room) shorter
    · rw [if_neg room] at fits
      exact absurd rfl fits

namespace Parser

variable {p q : Parser} {β : Type}

theorem openCell_suffix (p : Parser) (atEnd : Bool) :
    (p.openCell atEnd).2.window.pending <:+ p.window.pending := by
  have skipped : p.skipBlankLines.window.pending <:+ p.window.pending := by
    unfold skipBlankLines Window.skipLineBreaks
    dsimp only
    split
    · exact List.dropWhile_suffix _
    · exact List.suffix_rfl
  unfold openCell
  split
  · exact List.suffix_rfl
  · dsimp only
    split <;> exact skipped

theorem advance_suffix (p : Parser) (atEnd : Bool) :
    (p.advance atEnd).2.window.pending <:+ p.window.pending := by
  have opening := p.openCell_suffix atEnd
  unfold advance
  rcases opened : p.openCell atEnd with ⟨begun, q⟩
  rw [opened] at opening
  cases begun with
  | false => exact opening
  | true =>
    have reading : q.tokenize.2.window.pending <:+ p.window.pending :=
      (q.tokenizer.readField_rest_suffix ..).trans opening
    dsimp only
    rcases tokenized : q.tokenize with ⟨_ | _ | _ | _, r⟩ <;> rw [tokenized] at reading
    · dsimp only
      unfold endCell
      split <;> rename_i ended <;> split at ended <;> cases ended <;> exact reading
    · exact reading
    · exact reading
    · exact reading

theorem advance_length_lt {atEnd : Bool} {progress : Progress}
    (advanced : p.advance atEnd = (.ok progress, q)) (waits : p.window.pending ≠ []) :
    q.window.pending.length < p.window.pending.length := by
  have shorter := p.openCell_length_le atEnd
  have refusal := p.openCell_length_lt atEnd (Or.inl waits)
  unfold advance at advanced
  rcases opened : p.openCell atEnd with ⟨begun, r⟩
  rw [opened] at advanced shorter refusal
  cases begun with
  | false =>
    cases advanced
    exact refusal rfl
  | true =>
    have taken : r.tokenize.1 ≠ .noRoom →
        r.tokenize.2.window.pending.length < p.window.pending.length := by
      intro fits
      by_cases used : r.window.pending = []
      · have least := r.tokenizer.readField_rest_le r.window.pending r.buffer.capacity r.buffer.live
        rw [used] at least
        have left : r.tokenize.2.window.pending.length ≤ 0 := by
          show (r.tokenizer.readField r.window.pending _ _).rest.length ≤ 0
          rw [used]
          exact least
        exact Nat.lt_of_le_of_lt left (List.length_pos_iff.mpr waits)
      · exact Nat.lt_of_lt_of_le (r.tokenizer.readField_length_lt used fits) shorter
    dsimp only at advanced
    rcases tokenized : r.tokenize with ⟨result, t⟩
    rw [tokenized] at advanced taken
    cases result with
    | inputUsed =>
      cases advanced
      exact taken FieldResult.noConfusion
    | noRoom => cases advanced
    | dataEnd =>
      cases advanced
      exact taken FieldResult.noConfusion
    | field endsRecord =>
      have less := taken FieldResult.noConfusion
      dsimp only at advanced less
      unfold endCell at advanced
      split at advanced <;> rename_i ended <;> split at ended <;> cases ended <;> cases advanced
      exact less

/-- What a pass does, if `event` is what the reader answers: it is the last one of its call, takes
bytes that wait, reads on, closes the record in hand now that the input is used up, or leaves the
loop that fills the window for a byte-order mark. -/
inductive Headway (event : ReadEvent) (c d : Phase β) : Prop where
  | ends (returned : d.isReturned = true)
  | takes (source : d.parser.source = c.parser.source) (atEnd : d.parser.atEnd = c.parser.atEnd)
      (behind : d.parser.window.pending <:+ c.parser.window.pending)
      (fewer : d.parser.window.pending.length < c.parser.window.pending.length)
  | interrupted (asked : c.asks = true) (interrupted : event = .interrupted) (same : d = c)
  | reads (asked : c.asks = true) (bytes : Bytes)
      (front : c.parser.source.rest = bytes ++ d.parser.source.rest)
      (behind : d.parser.window.pending = c.parser.window.pending ++ bytes)
      (ended : bytes = [] → d.parser.atEnd = true)
  | closes (source : d.parser.source = c.parser.source) (atEnd : d.parser.atEnd = c.parser.atEnd)
      (used : c.parser.window.pending = []) (used' : d.parser.window.pending = [])
      (within : c.parser.tokenizer.state.isBetweenRecords = false)
      (closed : d.parser.tokenizer.state = .recordEnd)
  | marked (p : Parser) (s : β) (before : c = .marking p s) (after : d = .seeking p.skipMark s)

namespace Phase

variable {handler : RowHandler β} {event : ReadEvent}

theorem headway_behindRead (again : Parser → Phase β) (p : Parser) (s : β)
    (parser : ∀ q, (again q).parser = q) (asked : (again p).asks = true) :
    Headway event (again p) (behindRead again s (p.ask event)) := by
  by_cases interrupted : event = .interrupted
  · subst interrupted
    exact .interrupted asked rfl rfl
  · have filled := (p.withReads [event]).fill_cases
    rw [← ask_eq_fill p interrupted] at filled
    generalize p.ask event = found at filled ⊢
    cases filled with
    | ok bytes source read front offset =>
      refine .reads asked bytes ?_ ?_ ?_ <;> rw [behindRead, parser]
      · rw [parser]
        exact front
      · rw [parser]
        simp
      · rintro rfl
        exact Bool.or_true _
    | failed detail source scheduled rest offset => exact .ends rfl

theorem headway_pass (c : Phase β) (handler : RowHandler β) (event : ReadEvent) :
    Headway event c (c.pass handler event) := by
  have passes := c.pass_passes handler event
  generalize c.pass handler event = d at passes ⊢
  cases passes with
  | readMark p s open_ short =>
    exact headway_behindRead (.marking · s) p s (fun _ => rfl)
      (asks_marking_iff.mpr ⟨open_, short⟩)
  | marked p s enough => exact .marked p s rfl rfl
  | read p s open_ waits =>
    exact headway_behindRead (.seeking · s) p s (fun _ => rfl)
      (asks_seeking_iff.mpr ⟨open_, waits⟩)
  | noInput p s ended waits => exact .ends rfl
  | advance p s waits =>
    have source := p.advance_source p.atEnd
    have ended := p.advance_atEnd p.atEnd
    have behind := p.advance_suffix p.atEnd
    rcases advanced : p.advance p.atEnd with ⟨error | progress, q⟩
    · exact .ends rfl
    · have less := advance_length_lt advanced waits
      rw [advanced] at source ended behind
      have takes : Headway event (.seeking p s) (.seeking q s) := .takes source ended behind less
      cases progress with
      | field | needInput => exact takes
      | row | dataEnd => exact .ends rfl
  | flush p s =>
    have source := p.advance_source true
    have ended := p.advance_atEnd true
    by_cases used : p.window.pending = []
    · have last := advance_used used
      rcases advanced : p.advance true with ⟨outcome, q⟩
      rw [advanced] at source ended last
      cases last with
      | dataEnd q => exact .ends rfl
      | failed error q within => exact .ends rfl
      | row q used' closed within =>
        dsimp only [behindFlush]
        rcases handler q.completedRow s with ⟨error | _, t⟩
        · exact .ends rfl
        · exact .closes source ended used used' within closed
    · rcases advanced : p.advance true with ⟨error | progress, q⟩
      · exact .ends rfl
      · have less := advance_length_lt advanced used
        have behind := p.advance_suffix true
        rw [advanced] at source ended behind
        cases progress with
        | field | needInput => exact .takes source ended behind less
        | dataEnd => exact .ends rfl
        | row =>
          dsimp only [behindFlush]
          rcases handler q.completedRow s with ⟨error | _, t⟩
          · exact .ends rfl
          · exact .takes source ended behind less
  | returned result => exact .ends rfl

def work : Phase β → Nat
  | .marking p _ => p.work + 2
  | .seeking p _ | .flushing p _ => p.work + 1
  | .returned _ => 0

theorem work_behindRead_lt (again : Parser → Phase β) (extra : Nat) (p : Parser) (s : β)
    (answers : event ≠ .interrupted) (open_ : p.atEnd = false)
    (work : ∀ q, (again q).work = q.work + extra + 1) :
    (behindRead again s (p.ask event)).work < p.work + extra + 1 := by
  have less := (p.withReads [event]).work_fill_lt open_
  rw [← ask_eq_fill p answers] at less
  rcases found : p.ask event with ⟨error | _, q⟩ <;> rw [found] at less
  · exact Nat.succ_pos _
  · have less : q.work < p.work := less rfl
    rw [behindRead, work]
    omega

/-- Unless it is interrupted, a pass leaves less to do. -/
theorem work_pass_lt {c : Phase β} (going : c.isReturned = false)
    (answers : c.asks = true → event ≠ .interrupted) : (c.pass handler event).work < c.work := by
  have passes := c.pass_passes handler event
  generalize c.pass handler event = d at passes ⊢
  cases passes with
  | readMark p s open_ short =>
    exact work_behindRead_lt (.marking · s) 1 p s
      (answers (asks_marking_iff.mpr ⟨open_, short⟩)) open_ fun _ => rfl
  | marked p s enough => exact Nat.succ_lt_succ (Nat.lt_succ_of_le p.work_skipMark_le)
  | read p s open_ waits =>
    exact work_behindRead_lt (.seeking · s) 0 p s
      (answers (asks_seeking_iff.mpr ⟨open_, waits⟩)) open_ fun _ => rfl
  | noInput p s ended waits => exact Nat.succ_pos _
  | advance p s waits =>
    have less := p.work_advance_lt p.atEnd (Or.inl waits)
    rcases advanced : p.advance p.atEnd with ⟨error | _ | _ | _ | _, q⟩ <;> rw [advanced] at less
    · exact Nat.succ_pos _
    · exact Nat.succ_lt_succ (less _ rfl (by simp))
    · exact Nat.succ_pos _
    · exact Nat.succ_lt_succ (less _ rfl (by simp))
    · exact Nat.succ_pos _
  | flush p s =>
    have less := p.work_advance_lt true (Or.inr rfl)
    rcases advanced : p.advance true with ⟨error | _ | _ | _ | _, q⟩ <;> rw [advanced] at less
    · exact Nat.succ_pos _
    · exact Nat.succ_lt_succ (less _ rfl (by simp))
    · have less : q.afterRow.work < p.work := less _ rfl (by simp)
      dsimp only [behindFlush]
      rcases handler q.completedRow s with ⟨error | _, t⟩
      · exact Nat.succ_pos _
      · exact Nat.succ_lt_succ less
    · exact Nat.succ_lt_succ (less _ rfl (by simp))
    · exact Nat.succ_pos _
  | returned result => cases going

theorem pass_interrupted {c : Phase β} (asked : c.asks = true) :
    c.pass handler .interrupted = c := by
  cases c with
  | marking p s => rw [pass, if_pos asked]; rfl
  | seeking p s => rw [pass, if_pos asked]; rfl
  | flushing p s => cases asked
  | returned result => cases asked

end Phase

end Parser

end Tabular.Csv
