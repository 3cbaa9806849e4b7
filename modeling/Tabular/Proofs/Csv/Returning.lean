import Mathlib.Data.Nat.Count
import Mathlib.Logic.Function.Iterate
import Tabular.Proofs.Csv.Headway
import Tabular.Proofs.Csv.LastRecord

/-!
Why every call of a parser returns. However the reader answers, the passes of a call are bounded by
the bytes that are left and the reads that are interrupted, and they come to what the functions that
run come to.
-/
namespace Tabular.Csv.Parser

variable {p : Parser} {β : Type} {handler : RowHandler β} {schedule : Nat → ReadEvent}

/-! ## Runs of passes -/

/-- A call under way, and how often it has called the reader and the tokenizer. -/
structure Run (β : Type) where
  phase : Phase β
  reads : Nat := 0
  tokenized : Nat := 0

namespace Run

def pass (handler : RowHandler β) (schedule : Nat → ReadEvent) (r : Run β) : Run β where
  phase := r.phase.pass handler (schedule r.reads)
  reads := r.reads + if r.phase.asks then 1 else 0
  tokenized := r.tokenized + if r.phase.tokenizes then 1 else 0

/-- Whenever the call calls the reader, that is interrupted only finitely often before it brings
something, reports its end or fails. -/
def Answered (handler : RowHandler β) (schedule : Nat → ReadEvent) (r : Run β) : Prop :=
  ∀ passes, ((pass handler schedule)^[passes] r).phase.asks = true →
    ∃ n, ((pass handler schedule)^[passes] r).reads ≤ n ∧ schedule n ≠ .interrupted

theorem answered_of_frequently (handler : RowHandler β)
    (frequently : ∀ n, ∃ m, n ≤ m ∧ schedule m ≠ .interrupted) (r : Run β) : r.Answered handler schedule :=
  fun passes _ => frequently ((pass handler schedule)^[passes] r).reads

def interruptions (schedule : Nat → ReadEvent) (reads : Nat) : Nat :=
  Nat.count (fun n => schedule n = .interrupted) reads

theorem reads_pass {r : Run β} (asked : r.phase.asks = true) :
    (r.pass handler schedule).reads = r.reads + 1 :=
  congrArg (r.reads + ·) (if_pos asked)

theorem reads_pass_of_not_asks {r : Run β} (asked : ¬ r.phase.asks = true) :
    (r.pass handler schedule).reads = r.reads :=
  congrArg (r.reads + ·) (if_neg asked)

theorem interruptions_succ {n : Nat} (interrupted : schedule n = .interrupted) :
    interruptions schedule (n + 1) = interruptions schedule n + 1 := by
  rw [interruptions, Nat.count_succ, if_pos interrupted]
  rfl

theorem interruptions_succ_of_answer {n : Nat} (answers : schedule n ≠ .interrupted) :
    interruptions schedule (n + 1) = interruptions schedule n := by
  rw [interruptions, Nat.count_succ, if_neg answers]
  rfl

theorem Answered.pass {r : Run β} (answered : r.Answered handler schedule) :
    (r.pass handler schedule).Answered handler schedule :=
  fun passes => answered (passes + 1)

theorem Answered.iterate {r : Run β} (answered : r.Answered handler schedule) (passes : Nat) :
    ((Run.pass handler schedule)^[passes] r).Answered handler schedule := by
  induction passes generalizing r with
  | zero => exact answered
  | succ passes ih => exact ih answered.pass

theorem exists_answer (handler : RowHandler β) {r : Run β} (asked : r.phase.asks = true) {n : Nat}
    (behind : r.reads ≤ n) (answers : schedule n ≠ .interrupted) :
    ∃ passes, let r' := (pass handler schedule)^[passes] r
      r'.phase = r.phase ∧ schedule r'.reads ≠ .interrupted ∧
        passes + interruptions schedule r.reads = interruptions schedule r'.reads := by
  obtain ⟨distance, rfl⟩ := Nat.exists_eq_add_of_le behind
  induction distance generalizing r with
  | zero => exact ⟨0, rfl, answers, Nat.zero_add _⟩
  | succ distance ih =>
    by_cases interrupted : schedule r.reads = .interrupted
    · have same : (r.pass handler schedule).phase = r.phase := by
        show r.phase.pass handler (schedule r.reads) = _
        rw [interrupted, Phase.pass_interrupted asked]
      have next : (r.pass handler schedule).reads = r.reads + 1 := reads_pass asked
      obtain ⟨passes, phase, answer, count⟩ := ih (r := r.pass handler schedule)
        (by rw [same]; exact asked) (by omega)
        (by rw [next, Nat.add_assoc, Nat.add_comm 1]; exact answers)
      refine ⟨passes + 1, phase.trans same, answer, ?_⟩
      rw [next, interruptions_succ interrupted] at count
      rw [Function.iterate_succ_apply]
      omega
    · exact ⟨0, rfl, interrupted, Nat.zero_add _⟩

/-- A call returns after as many passes as there was left to do and reads were interrupted. -/
theorem exists_returned (r : Run β) (answered : r.Answered handler schedule) :
    ∃ passes, let r' := (pass handler schedule)^[passes] r
      r'.phase.isReturned = true ∧ passes + interruptions schedule r.reads ≤
        r.phase.work + interruptions schedule r'.reads := by
  cases going : r.phase.isReturned with
  | true => exact ⟨0, going, Nat.add_le_add_right (Nat.zero_le _) _⟩
  | false =>
    by_cases asked : r.phase.asks = true
    · obtain ⟨n, behind, answers⟩ := answered 0 asked
      obtain ⟨waited, same, answer, counted⟩ := exists_answer handler asked behind answers
      have answered' := answered.iterate waited
      have onward := fun passes =>
        Function.iterate_add_apply (pass handler schedule) passes waited r
      generalize (pass handler schedule)^[waited] r = r' at same answer counted answered' onward
      have less : (r'.pass handler schedule).phase.work < r.phase.work :=
        same ▸ Phase.work_pass_lt (by rw [same]; exact going) fun _ => answer
      obtain ⟨passes, returned, few⟩ := exists_returned _ answered'.pass
      rw [reads_pass (by rw [same]; exact asked), interruptions_succ_of_answer answer] at few
      refine ⟨passes + 1 + waited, ?_⟩
      rw [onward]
      exact ⟨returned, by rw [Function.iterate_succ_apply]; omega⟩
    · have less : (r.pass handler schedule).phase.work < r.phase.work :=
        Phase.work_pass_lt going fun asks => absurd asks asked
      obtain ⟨passes, returned, few⟩ := exists_returned _ answered.pass
      rw [reads_pass_of_not_asks asked] at few
      exact ⟨passes + 1, returned, by rw [Function.iterate_succ_apply]; omega⟩
termination_by r.phase.work

theorem calls_le_passes (phase : Phase β) (passes : Nat) :
    let r := (pass handler schedule)^[passes] { phase }
    r.reads + r.tokenized ≤ passes := by
  induction passes with
  | zero => exact Nat.le_refl 0
  | succ passes ih =>
    rw [Function.iterate_succ_apply']
    generalize (pass handler schedule)^[passes] { phase } = r at ih ⊢
    have counted : (r.pass handler schedule).tokenized =
        r.tokenized + if r.phase.tokenizes then 1 else 0 := rfl
    dsimp only at ih ⊢
    by_cases asked : r.phase.asks = true
    · rw [Phase.tokenizes_of_asks asked, if_neg Bool.false_ne_true] at counted
      rw [reads_pass asked, counted]
      omega
    · rw [reads_pass_of_not_asks asked, counted]
      split <;> omega

def front (schedule : Nat → ReadEvent) (reads : Nat) : List ReadEvent :=
  (List.range reads).map schedule

theorem front_pass (r : Run β) : front schedule (r.pass handler schedule).reads =
    front schedule r.reads ++ r.phase.used (schedule r.reads) := by
  unfold Phase.used
  by_cases asked : r.phase.asks = true
  · rw [reads_pass asked, if_pos asked, front, List.range_succ, List.map_append]
    rfl
  · rw [reads_pass_of_not_asks asked, if_neg asked, List.append_nil]

/-- Wherever a call has come to, the functions that run come to the same from there, over a source
that has given the answers in between. -/
theorem rest_iterate (handler : RowHandler β) (schedule : Nat → ReadEvent) (r : Run β)
    (passes : Nat) :
    let r' := (pass handler schedule)^[passes] r
    ∃ between, front schedule r'.reads = front schedule r.reads ++ between ∧ ∀ later,
      (r'.phase.withReads later).rest handler =
        (r.phase.withReads (between ++ later)).rest handler := by
  induction passes generalizing r with
  | zero => exact ⟨[], (List.append_nil _).symm, fun _ => rfl⟩
  | succ passes ih =>
    obtain ⟨between, answers, same⟩ := ih (r.pass handler schedule)
    rw [front_pass, List.append_assoc] at answers
    refine ⟨_, answers, fun later => (same later).trans ?_⟩
    rw [List.append_assoc]
    exact r.phase.rest_pass _ _

theorem rest_of_returned {r : Run β} {passes : Nat}
    {result : Except Error StepOutcome × Parser × β}
    (returned : ((pass handler schedule)^[passes] r).phase = .returned result) :
    ∃ between, front schedule ((pass handler schedule)^[passes] r).reads =
        front schedule r.reads ++ between ∧
      ∀ later, (r.phase.withReads (between ++ later)).rest handler =
        (result.1, result.2.1.withReads later, result.2.2) := by
  obtain ⟨between, answers, same⟩ := rest_iterate handler schedule r passes
  rw [returned] at same
  exact ⟨between, answers, fun later => (same later).symm⟩

theorem outlasts_of_returned {r : Run β} {passes : Nat}
    {result : Except Error StepOutcome × Parser × β}
    (returned : ((pass handler schedule)^[passes] r).phase = .returned result)
    (used : r.phase.parser.window.pending = []) (ended : r.phase.parser.atEnd = true)
    (later : List ReadEvent) : Outlasts r.phase.parser.rows (result.2.1.withReads later) := by
  obtain ⟨between, -, same⟩ := rest_of_returned returned
  have parser := r.phase.parser_withReads (between ++ later)
  have outlasts := outlasts_rest (c := r.phase.withReads (between ++ later))
    (by rw [parser]; exact used) (by rw [parser]; exact ended) handler
  rw [same, parser] at outlasts
  exact outlasts

end Run

/-! ## Where a call begins -/

theorem work_le (p : Parser) :
    p.work ≤ 3 * p.source.rest.length + 2 * p.window.pending.length + 2 := by
  unfold work bufferedWork Tokenizer.work
  split <;> split <;> omega

theorem work_atFinish_le (p : Parser) : p.atFinish.work ≤ p.work := by
  have ended : { p.beginGeneration with atEnd := true }.work ≤ p.work := by
    rw [← work_beginGeneration p, work, work, if_pos rfl]
    exact Nat.add_le_add_left (Nat.zero_le _) _
  unfold atFinish
  split
  · exact ended
  · exact Nat.le_trans (work_skipMark_le _) ended

theorem Call.work_begin_le (call : Call β) (p : Parser) (s : β) :
    (call.begin p s).work ≤ p.work + 2 := by
  have finishing := p.work_atFinish_le
  unfold Call.begin
  cases call with
  | parseMore handler =>
    dsimp only
    split
    · exact Nat.zero_le _
    · exact Nat.zero_le _
    · exact Nat.zero_le _
    · split
      · exact Nat.add_le_add_left (Nat.le_succ 1) _
      · exact Nat.le_refl _
  | finish handler =>
    dsimp only
    split
    · exact Nat.zero_le _
    · exact Nat.zero_le _
    · exact Nat.add_le_add finishing (Nat.le_succ 1)
    · exact Nat.add_le_add finishing (Nat.le_succ 1)

theorem Call.result_of_returned {call : Call β} {s : β} {passes : Nat}
    {result : Except Error StepOutcome × Parser × β}
    (returned : ((Run.pass call.handler schedule)^[passes]
      { phase := call.begin p s }).phase = .returned result) (later : List ReadEvent) :
    call.result (p.withReads (Run.front schedule ((Run.pass call.handler schedule)^[passes]
      { phase := call.begin p s }).reads ++ later)) s =
        (result.1, result.2.1.withReads later, result.2.2) := by
  obtain ⟨between, answers, same⟩ := Run.rest_of_returned returned
  rw [answers, ← call.begin_rest, call.begin_withReads]
  exact same later

/-- Every call of a parser returns, whatever state the parser is in and whatever its options, its
delimiter and its input are, if the reader is interrupted only finitely often whenever it is asked.
Reads and calls of the tokenizer are at most as many as passes, and those are bounded by the bytes
left and the reads that were interrupted. No pass is idle. Once no byte is left, one more record
comes at most, in this call and all later ones. -/
theorem calls_return (call : Call β) (schedule : Nat → ReadEvent) (p : Parser) (s : β)
    (answered : Run.Answered call.handler schedule { phase := call.begin p s }) :
    let run (passes : Nat) := (Run.pass call.handler schedule)^[passes] { phase := call.begin p s }
    (∃ passes outcome q t, (run passes).phase = .returned (outcome, q, t) ∧
      (run passes).reads + (run passes).tokenized ≤ passes ∧
      passes ≤ 3 * p.source.rest.length + 2 * p.window.pending.length + 4 +
        Run.interruptions schedule (run passes).reads ∧
      (∀ later, call.result (p.withReads (Run.front schedule (run passes).reads ++ later)) s =
        (outcome, q.withReads later, t)) ∧
      (∀ earlier ≤ passes, (run earlier).phase.parser.atEnd = true →
        (run earlier).phase.parser.window.pending = [] → ∀ later calls,
          (runCalls calls (q.withReads later, t)).1.rows ≤ (run earlier).phase.parser.rows + 1) ∧
      (p.status = .ready → outcome = .ok .noMoreInput → ∀ later calls,
        (runCalls calls (q.withReads later, t)).1.rows ≤ q.rows + 1)) ∧
    ∀ passes,
      Headway (schedule (run passes).reads) (run passes).phase (run (passes + 1)).phase := by
  intro run
  refine ⟨?_, fun passes => ?_⟩
  · obtain ⟨passes, ended, few⟩ := Run.exists_returned { phase := call.begin p s } answered
    obtain ⟨⟨outcome, q, t⟩, returned⟩ := Phase.exists_of_isReturned ended
    have result := Call.result_of_returned returned
    refine ⟨passes, outcome, q, t, returned, Run.calls_le_passes (call.begin p s) passes, ?_,
      result, ?_, ?_⟩
    · have few : passes ≤ (call.begin p s).work +
          Run.interruptions schedule (run passes).reads := few
      have work := call.work_begin_le p s
      have bytes := p.work_le
      omega
    · intro earlier before ended used later calls
      have onward :
          (Run.pass call.handler schedule)^[passes - earlier] (run earlier) = run passes := by
        rw [← Function.iterate_add_apply, Nat.sub_add_cancel before]
      have returned : (run passes).phase = .returned (outcome, q, t) := returned
      rw [← onward] at returned
      exact (Run.outlasts_of_returned returned used ended later).rows_runCalls_le calls t
    · rintro ready rfl later calls
      refine (outlasts_of_noMoreInput ?_ (result later)).rows_runCalls_le calls t
      exact ready
  · show Headway _ _ ((Run.pass call.handler schedule)^[passes + 1] _).phase
    rw [Function.iterate_succ_apply']
    exact Phase.headway_pass _ _ _

/-- The delimiter is a quote, and two reads of three are interrupted. The first step finds the end
of `a"b`, which leaves its record in hand; no more than this one is still to come. -/
theorem calls_return_between_interruptions :
    let options : Options := { delimiter := Byte.quote, bufferSize := 4, readChunk := 1 }
    let p := initial (Source.ofBytes [97, 34, 98]) options
    let schedule (n : Nat) : ReadEvent := if n % 3 = 2 then .atMost 1 else .interrupted
    let call : Call Nat := .parseMore takeRows
    let run (passes : Nat) := (Run.pass call.handler schedule)^[passes] { phase := call.begin p 5 }
    Run.Answered call.handler schedule { phase := call.begin p 5 } ∧
      ∃ passes outcome q t, (run passes).phase = .returned (outcome, q, t) ∧
        passes ≤ 13 + Run.interruptions schedule (run passes).reads ∧
        (∀ later, (p.withReads (Run.front schedule (run passes).reads ++ later)).parseMore
          takeRows 5 = (outcome, q.withReads later, t)) ∧
        ∀ later calls, (runCalls calls (q.withReads later, t)).1.rows ≤ 1 := by
  intro options p schedule call run
  have frequently : ∀ n, ∃ m, n ≤ m ∧ schedule m ≠ .interrupted := by
    intro n
    refine ⟨3 * n + 2, by omega, ?_⟩
    show (if (3 * n + 2) % 3 = 2 then ReadEvent.atMost 1 else .interrupted) ≠ .interrupted
    rw [if_pos (by omega)]
    exact ReadEvent.noConfusion
  have answered := Run.answered_of_frequently call.handler frequently
    { phase := call.begin p 5 }
  have atEnd : (run 15).phase.parser.atEnd = true := by decide +kernel
  have used : (run 15).phase.parser.window.pending = [] := by decide +kernel
  have none : (run 15).phase.parser.rows = 0 := by decide +kernel
  have going : ∀ passes < 15, (run passes).phase.isReturned = false := by decide +kernel
  obtain ⟨⟨passes, outcome, q, t, returned, -, few, result, last, -⟩, -⟩ :=
    calls_return call schedule p 5 answered
  have late : 15 ≤ passes := by
    refine Nat.le_of_not_lt fun early => ?_
    have ended : (run passes).phase.isReturned = true := congrArg Phase.isReturned returned
    rw [going passes early] at ended
    exact Bool.false_ne_true ended
  refine ⟨answered, passes, outcome, q, t, returned, few, result, fun later calls => ?_⟩
  have one := last 15 late atEnd used later calls
  rw [none] at one
  exact one

end Tabular.Csv.Parser
