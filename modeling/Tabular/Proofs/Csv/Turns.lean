import Tabular.Proofs.Csv.Moves

/-!
The loops of a step, as turns. A turn reads on when nothing waits, or takes what waits as far as it
goes. What every turn keeps is kept up to where the loop stops, whatever the source does.
-/
namespace Tabular.Csv.Parser

structure Filling (p q : Parser) : Prop where
  open_ : p.atEnd = false
  short : p.window.pending = [] ∨ p.window.filled < byteOrderMark.length
  filled : p.fill = (.ok (), q)

/-- One turn. A record that it completes ends the loop, so it is none. -/
inductive Turn (p q : Parser) : Prop where
  | fill (filling : Filling p q)
  | advance (progress : Progress) (waits : p.window.pending ≠ [])
      (advanced : p.advance p.atEnd = (.ok progress, q))
      (going : progress = .field ∨ progress = .needInput)

def Fillings : Parser → Parser → Prop := Relation.ReflTransGen Filling

def Turns : Parser → Parser → Prop := Relation.ReflTransGen Turn

theorem Turn.moves {p q : Parser} (turn : Turn p q) : Moves p q := by
  cases turn with
  | fill filling => exact moves_of_fill filling.filled
  | advance progress waits advanced => exact moves_of_advance advanced

theorem Turns.moves {p q : Parser} (turns : Turns p q) : Moves p q := by
  induction turns with
  | refl => exact Moves.refl p
  | tail _ turn ih => exact ih.trans turn.moves

theorem Fillings.turns {p q : Parser} (fillings : Fillings p q) : Turns p q :=
  Relation.ReflTransGen.mono (fun _ _ => Turn.fill) _ _ fillings

/-! ## The loops, one turn at a time -/

def goOn (again : Parser → Except Error StepOutcome × Parser) :
    Except Error Progress × Parser → Except Error StepOutcome × Parser
  | (.error error, q) => (.error error, q)
  | (.ok .row, q) => (.ok .row, q)
  | (.ok .dataEnd, q) => (.ok .noMoreInput, q)
  | (.ok .field, q) | (.ok .needInput, q) => again q

theorem flushRow_eq (p : Parser) : p.flushRow = goOn flushRow (p.advance true) := by
  rw [flushRow]
  split <;> rename_i advanced <;> rw [advanced] <;> rfl

theorem seekRow_of_waits {p : Parser} (waits : p.window.pending ≠ []) :
    p.seekRow = goOn seekRow (p.advance p.atEnd) := by
  rw [seekRow, dif_neg (by simpa using waits)]
  split <;> rename_i advanced <;> rw [advanced] <;> rfl

theorem seekRow_of_ended {p : Parser} (used : p.window.pending = []) (ended : p.atEnd = true) :
    p.seekRow = (.ok .noMoreInput, p) := by
  rw [seekRow, dif_pos (by simpa using used), dif_pos ended]

theorem seekRow_of_unread {p q : Parser} {error : Error} (used : p.window.pending = [])
    (open_ : p.atEnd = false) (filled : p.fill = (.error error, q)) :
    p.seekRow = (.error error, q) := by
  rw [seekRow, dif_pos (by simpa using used), dif_neg (by simp [open_])]
  split <;> rename_i again <;> rw [filled] at again <;> cases again
  rfl

theorem seekRow_of_fill {p q : Parser} (used : p.window.pending = []) (open_ : p.atEnd = false)
    (filled : p.fill = (.ok (), q)) : q.seekRow = p.seekRow := by
  rw [seekRow.eq_def p, dif_pos (by simpa using used), dif_neg (by simp [open_])]
  split <;> rename_i again <;> rw [filled] at again <;> cases again
  rfl

/-! ## Where the loops stop -/

inductive SeekStops (p : Parser) : Except Error StepOutcome × Parser → Prop where
  | noInput (used : p.window.pending = []) (ended : p.atEnd = true) :
      SeekStops p (.ok .noMoreInput, p)
  | unread (error : Error) (q : Parser) (open_ : p.atEnd = false) (used : p.window.pending = [])
      (filled : p.fill = (.error error, q)) : SeekStops p (.error error, q)
  | failed (error : Error) (q : Parser) (waits : p.window.pending ≠ [])
      (advanced : p.advance p.atEnd = (.error error, q)) : SeekStops p (.error error, q)
  | row (q : Parser) (waits : p.window.pending ≠ [])
      (advanced : p.advance p.atEnd = (.ok .row, q)) : SeekStops p (.ok .row, q)
  | dataEnd (q : Parser) (waits : p.window.pending ≠ [])
      (advanced : p.advance p.atEnd = (.ok .dataEnd, q)) : SeekStops p (.ok .noMoreInput, q)

theorem seekRow_turns (p : Parser) : ∃ q, Turns p q ∧ SeekStops q p.seekRow := by
  have waiting : ∀ p : Parser, ¬ p.window.pending.isEmpty = true → p.window.pending ≠ [] :=
    fun p waits empty => waits (List.isEmpty_iff.mpr empty)
  fun_induction seekRow p with
  | case1 p waits ended => exact ⟨p, .refl, .noInput (List.isEmpty_iff.mp waits) ended⟩
  | case2 p waits ended error q filled =>
    exact ⟨p, .refl, .unread error q (by simpa using ended) (List.isEmpty_iff.mp waits) filled⟩
  | case3 p waits ended q filled ih =>
    obtain ⟨r, turns, stops⟩ := ih
    have filling : Filling p q := ⟨by simpa using ended, Or.inl (List.isEmpty_iff.mp waits), filled⟩
    exact ⟨r, turns.head (.fill filling), stops⟩
  | case4 p waits error q advanced =>
    exact ⟨p, .refl, .failed error q (waiting p waits) advanced⟩
  | case5 p waits q advanced => exact ⟨p, .refl, .row q (waiting p waits) advanced⟩
  | case6 p waits q advanced => exact ⟨p, .refl, .dataEnd q (waiting p waits) advanced⟩
  | case7 p waits q advanced ih =>
    obtain ⟨r, turns, stops⟩ := ih
    exact ⟨r, turns.head (.advance .field (waiting p waits) advanced (Or.inl rfl)), stops⟩
  | case8 p waits q advanced ih =>
    obtain ⟨r, turns, stops⟩ := ih
    exact ⟨r, turns.head (.advance .needInput (waiting p waits) advanced (Or.inr rfl)), stops⟩

inductive FillStops (p : Parser) : Except Error Unit × Parser → Prop where
  | enough (enough : p.atEnd = true ∨ byteOrderMark.length ≤ p.window.filled) :
      FillStops p (.ok (), p)
  | unread (error : Error) (q : Parser) (open_ : p.atEnd = false)
      (short : p.window.filled < byteOrderMark.length) (filled : p.fill = (.error error, q)) :
      FillStops p (.error error, q)

theorem fillMark_fillings (p : Parser) : ∃ q, Fillings p q ∧ FillStops q p.fillMark := by
  fun_induction fillMark p with
  | case1 p ended => exact ⟨p, .refl, .enough (Or.inl ended)⟩
  | case2 p ended short error q filled =>
    exact ⟨p, .refl, .unread error q (by simpa using ended) short filled⟩
  | case3 p ended short q filled ih =>
    obtain ⟨r, fillings, stops⟩ := ih
    have filling : Filling p q := ⟨by simpa using ended, Or.inr short, filled⟩
    exact ⟨r, fillings.head filling, stops⟩
  | case4 p ended full => exact ⟨p, .refl, .enough (Or.inr (Nat.le_of_not_lt full))⟩

end Tabular.Csv.Parser
