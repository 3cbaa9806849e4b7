import Mathlib.Logic.Relation
import Tabular.Csv.Steps

/-!
What a parse does between two records, as a row of elementary moves. Whatever every move keeps is
kept by the loops that are made of them, whether they succeed or fail.
-/
namespace Tabular.Csv.Parser

inductive Move : Parser → Parser → Prop where
  | openCell (p : Parser) (atEnd : Bool) : Move p (p.openCell atEnd).2
  | tokenize (p : Parser) : Move p p.tokenize.2
  | endCell (p : Parser) : Move p p.endCell.2
  | fill (p : Parser) : Move p p.fill.2
  | skipMark (p : Parser) : Move p p.skipMark

def Moves : Parser → Parser → Prop := Relation.ReflTransGen Move

theorem Moves.refl (p : Parser) : Moves p p := Relation.ReflTransGen.refl

theorem Moves.trans {p q r : Parser} (first : Moves p q) (then_ : Moves q r) : Moves p r :=
  Relation.ReflTransGen.trans first then_

theorem Move.moves {p q : Parser} (move : Move p q) : Moves p q :=
  Relation.ReflTransGen.single move

theorem Moves.keep (Kept : Parser → Prop) (keeps : ∀ p q, Move p q → Kept p → Kept q)
    {p q : Parser} (moves : Moves p q) (before : Kept p) : Kept q := by
  induction moves with
  | refl => exact before
  | tail _ move ih => exact keeps _ _ move ih

theorem advance_moves (p : Parser) (atEnd : Bool) : Moves p (p.advance atEnd).2 := by
  have opening := (Move.openCell p atEnd).moves
  unfold advance
  rcases opened : p.openCell atEnd with ⟨begun, q⟩
  rw [opened] at opening
  cases begun with
  | false => exact opening
  | true =>
    have reading := opening.trans (Move.tokenize q).moves
    dsimp only
    rcases tokenized : q.tokenize with ⟨result, r⟩
    rw [tokenized] at reading
    cases result with
    | inputUsed => exact reading
    | noRoom => exact reading
    | dataEnd => exact reading
    | field endsRecord =>
      have closing := reading.trans (Move.endCell r).moves
      dsimp only
      split <;> rename_i ended <;> rw [ended] at closing <;> exact closing

theorem moves_of_advance {p q : Parser} {atEnd : Bool} {outcome : Except Error Progress}
    (advanced : p.advance atEnd = (outcome, q)) : Moves p q := by
  have moving := p.advance_moves atEnd
  rw [advanced] at moving
  exact moving

theorem moves_of_fill {p q : Parser} {outcome : Except Error Unit}
    (filled : p.fill = (outcome, q)) : Moves p q := by
  have reading := (Move.fill p).moves
  rw [filled] at reading
  exact reading

theorem fillMark_moves (p : Parser) : Moves p p.fillMark.2 := by
  fun_induction fillMark p with
  | case1 p ended => exact Moves.refl p
  | case2 p ended short error q filled => exact moves_of_fill filled
  | case3 p ended short q filled ih => exact (moves_of_fill filled).trans ih
  | case4 p ended full => exact Moves.refl p

theorem checkMark_moves (p : Parser) : Moves p p.checkMark.2 := by
  have reading := p.fillMark_moves
  unfold checkMark
  split
  · exact Moves.refl p
  · split <;> rename_i result <;> rw [result] at reading
    · exact reading
    · exact reading.trans (Move.skipMark _).moves

theorem seekRow_moves (p : Parser) : Moves p p.seekRow.2 := by
  fun_induction seekRow p with
  | case1 p waits ended => exact Moves.refl p
  | case2 p waits ended error q filled => exact moves_of_fill filled
  | case3 p waits ended q filled ih => exact (moves_of_fill filled).trans ih
  | case4 p waits error q advanced => exact moves_of_advance advanced
  | case5 p waits q advanced => exact moves_of_advance advanced
  | case6 p waits q advanced => exact moves_of_advance advanced
  | case7 p waits q advanced ih => exact (moves_of_advance advanced).trans ih
  | case8 p waits q advanced ih => exact (moves_of_advance advanced).trans ih

theorem flushRow_moves (p : Parser) : Moves p p.flushRow.2 := by
  fun_induction flushRow p with
  | case1 p error q advanced => exact moves_of_advance advanced
  | case2 p q advanced => exact moves_of_advance advanced
  | case3 p q advanced => exact moves_of_advance advanced
  | case4 p q advanced ih => exact (moves_of_advance advanced).trans ih
  | case5 p q advanced ih => exact (moves_of_advance advanced).trans ih

theorem moves_of_flushRow {p q : Parser} {outcome : Except Error StepOutcome}
    (found : p.flushRow = (outcome, q)) : Moves p q := by
  have moving := p.flushRow_moves
  rw [found] at moving
  exact moving

end Tabular.Csv.Parser
