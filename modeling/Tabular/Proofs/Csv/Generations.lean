import Tabular.Proofs.Csv.Calls
import Tabular.Table.Cache

/-!
What a row that was handed out still means later. Its spans read as they did for as long as the
generation lasts in which it was handed out; from then on they are refused. No call writes over
bytes that were handed out, nor moves them, without beginning a generation first.
-/
namespace Tabular.Csv

namespace Parser

/-! ## Rows handed out -/

/-- A row that was handed out by this parser or by what it was before. -/
structure Keeps (p : Parser) (row : Row) : Prop where
  generation_le : row.generation ≤ p.generation
  inside : ∀ span ∈ row.spans, span.stop ≤ row.text.size
  text : row.generation = p.generation → row.text.toList <+: p.buffer.live.toList

theorem Keeps.of_continues {p q : Parser} {row : Row} (keeps : Keeps p row)
    (continues : Continues p q) : Keeps q row where
  generation_le := by rw [continues.generation]; exact keeps.generation_le
  inside := keeps.inside
  text := by
    intro current
    rw [continues.generation] at current
    exact (keeps.text current).trans continues.live

theorem Keeps.beginGeneration {p : Parser} {row : Row} (keeps : Keeps p row) :
    Keeps p.beginGeneration row where
  generation_le := Nat.le_succ_of_le keeps.generation_le
  inside := keeps.inside
  text := by
    intro current
    have older := keeps.generation_le
    rw [beginGeneration_generation] at current
    omega

theorem keeps_completedRow {p : Parser} (layout : Layout p) : Keeps p p.completedRow where
  generation_le := Nat.le_refl _
  inside := fun _ member => layout.span_le (Array.mem_toList_iff.mpr member)
  text := fun _ => List.prefix_rfl

/-- What reading back a span of a row comes to: its bytes as they were handed out, or a refusal
once the generation has passed. -/
theorem resolve_of_keeps {p : Parser} {row : Row} (layout : Layout p) (keeps : Keeps p row)
    {span : CellSpan} (member : span ∈ row.spans) :
    p.resolve span row.generation =
      if row.generation = p.generation then .ok (row.cell span).bytes
      else .error (.staleCell row.generation p.generation) := by
  unfold resolve
  by_cases current : row.generation = p.generation
  · have text := keeps.text current
    have inside := keeps.inside span member
    have longer := text.length_le
    rw [Array.length_toList, Array.length_toList] at longer
    rw [if_neg (not_not_intro current), if_pos current,
      p.buffer.get?_live span (Nat.le_trans inside longer) layout.live_le,
      span.bytesIn_of_prefix text inside]
    rfl
  · rw [if_pos current, if_neg current]

/-! ## Calls -/

variable {β : Type}

theorem invariant_keeps (handler : RowHandler β) (row : Row) :
    Invariant handler fun p _ => Keeps p row where
  begins := fun _ _ _ keeps => keeps.beginGeneration
  moves := fun _ _ _ _ move keeps => keeps.of_continues move.continues
  delivers := fun _ _ _ _ keeps => { keeps with }
  ends := fun _ _ _ _ keeps => { keeps with }

/-- A handler that notes every row it is given before it takes or refuses it. -/
def watched (handler : RowHandler β) : RowHandler (List Row × β) := fun row state =>
  ((handler row state.2).1, state.1 ++ [row], (handler row state.2).2)

theorem invariant_watched (handler : RowHandler β) :
    Invariant (watched handler) fun p state => ∀ row ∈ state.1, Keeps p row where
  begins := fun _ _ _ keeps row seen => (keeps row seen).beginGeneration
  moves := fun _ _ _ _ move keeps row seen => (keeps row seen).of_continues move.continues
  delivers := by
    intro p state layout completed keeps row seen
    rcases List.mem_append.mp seen with earlier | now
    · exact { keeps row earlier with }
    · rw [List.mem_singleton.mp now]
      exact { keeps_completedRow layout with }
  ends := fun _ _ _ _ keeps row seen => { keeps row seen with }

/-- A call of a parser with the handler it is given. -/
inductive Call (β : Type) where
  | parseMore (handler : RowHandler β)
  | finish (handler : RowHandler β)

def Call.handler : Call β → RowHandler β
  | .parseMore handler | .finish handler => handler

def Call.run (call : Call β) (state : Parser × β) : Parser × β :=
  match call with
  | .parseMore handler => (state.1.parseMore handler state.2).2
  | .finish handler => (state.1.finish handler state.2).2

def runCalls (calls : List (Call β)) (state : Parser × β) : Parser × β :=
  calls.foldl (fun state call => call.run state) state

@[simp] theorem runCalls_cons (call : Call β) (rest : List (Call β)) (state : Parser × β) :
    runCalls (call :: rest) state = runCalls rest (call.run state) := rfl

@[simp] theorem runCalls_append (calls later : List (Call β)) (state : Parser × β) :
    runCalls (calls ++ later) state = runCalls later (runCalls calls state) :=
  List.foldl_append

theorem runCalls_concat (calls : List (Call β)) (call : Call β) (state : Parser × β) :
    runCalls (calls ++ [call]) state = call.run (runCalls calls state) :=
  runCalls_append calls [call] state

def Call.watched : Call β → Call (List Row × β)
  | .parseMore handler => .parseMore (Parser.watched handler)
  | .finish handler => .finish (Parser.watched handler)

/-- The rows handed out in calls, taken and refused ones, in order. -/
def rowsSeen (calls : List (Call β)) (state : Parser × β) : List Row :=
  (runCalls (calls.map Call.watched) (state.1, [], state.2)).2.1

/-! ## Watching changes nothing -/

def unwatched {α : Type} (result : α × Parser × List Row × β) : α × Parser × β :=
  (result.1, result.2.1, result.2.2.2)

theorem step_watched (handler : RowHandler β) (p : Parser) (seen : List Row) (s : β) :
    unwatched (p.step (watched handler) (seen, s)) = p.step handler s := by
  unfold step
  rcases p.checkMark with ⟨marked, q⟩
  cases marked with
  | error error => rfl
  | ok _ =>
    dsimp only
    rcases q.seekRow with ⟨sought, r⟩
    cases sought with
    | error error => rfl
    | ok outcome =>
      cases outcome with
      | noMoreInput => rfl
      | row =>
        dsimp only [watched]
        rcases handler r.completedRow s with ⟨answer, t⟩
        cases answer <;> rfl

theorem flush_watched (handler : RowHandler β) (p : Parser) (seen : List Row) (s : β) :
    unwatched (p.flush (watched handler) (seen, s)) = p.flush handler s := by
  fun_induction Parser.flush handler p s generalizing seen with
  | case1 p s error q found =>
    rw [Parser.flush, found]
    rfl
  | case2 p s q found =>
    rw [Parser.flush, found]
    rfl
  | case3 p s q found error t handled =>
    rw [Parser.flush, found]
    simp only [watched, handled]
    rfl
  | case4 p s q found t handled ih =>
    rw [Parser.flush, found]
    simp only [watched, handled]
    exact ih _

theorem Call.run_watched (call : Call β) (p : Parser) (seen : List Row) (s : β) :
    ∃ noted, call.watched.run (p, seen, s) =
      ((call.run (p, s)).1, noted, (call.run (p, s)).2) := by
  cases call with
  | parseMore handler =>
    by_cases ready : p.status = .ready
    · rcases stepped : p.beginGeneration.step (Parser.watched handler) (seen, s) with
        ⟨outcome, q, noted, t⟩
      have same := step_watched handler p.beginGeneration seen s
      rw [stepped] at same
      refine ⟨noted, ?_⟩
      simp only [Call.watched, Call.run, parseMore_ready _ ready stepped,
        parseMore_ready _ ready same.symm]
    · refine ⟨seen, ?_⟩
      simp only [Call.watched, Call.run, parseMore_over _ _ ready]
  | finish handler =>
    by_cases open_ : p.status = .ready ∨ p.status = .exhausted
    · rcases flushed : p.atFinish.flush (Parser.watched handler) (seen, s) with
        ⟨outcome, q, noted, t⟩
      have same := flush_watched handler p.atFinish seen s
      rw [flushed] at same
      refine ⟨noted, ?_⟩
      simp only [Call.watched, Call.run, finish_open _ open_ flushed,
        finish_open _ open_ same.symm]
    · rw [not_or] at open_
      refine ⟨seen, ?_⟩
      simp only [Call.watched, Call.run, finish_over _ _ open_.1 open_.2]

/-! ## Runs -/

theorem Call.run_hold {Holds : Parser → β → Prop} {call : Call β}
    (invariant : Invariant call.handler Holds) (state : Parser × β) (layout : Layout state.1)
    (holds : Holds state.1 state.2) :
    Layout (call.run state).1 ∧ Holds (call.run state).1 (call.run state).2 := by
  cases call with
  | parseMore handler => exact invariant.parseMore _ _ layout holds
  | finish handler => exact invariant.finish _ _ layout holds

theorem runCalls_hold {Holds : Parser → β → Prop} (calls : List (Call β))
    (invariant : ∀ call ∈ calls, Invariant call.handler Holds) (state : Parser × β)
    (layout : Layout state.1) (holds : Holds state.1 state.2) :
    Layout (runCalls calls state).1 ∧
      Holds (runCalls calls state).1 (runCalls calls state).2 := by
  induction calls generalizing state with
  | nil => exact ⟨layout, holds⟩
  | cons call rest ih =>
    obtain ⟨layout, holds⟩ := Call.run_hold (invariant call List.mem_cons_self) state layout holds
    exact ih (fun call member => invariant call (List.mem_cons_of_mem _ member)) _ layout holds

theorem runCalls_watched (calls : List (Call β)) (p : Parser) (seen : List Row) (s : β) :
    ∃ noted, runCalls (calls.map Call.watched) (p, seen, s) =
      ((runCalls calls (p, s)).1, noted, (runCalls calls (p, s)).2) := by
  induction calls generalizing p seen s with
  | nil => exact ⟨seen, rfl⟩
  | cons call rest ih =>
    obtain ⟨noted, same⟩ := call.run_watched p seen s
    obtain ⟨later, runs⟩ := ih (call.run (p, s)).1 noted (call.run (p, s)).2
    refine ⟨later, ?_⟩
    simpa [same] using runs

theorem noted_hold {Holds : Parser → List Row × β → Prop}
    (invariant : ∀ handler : RowHandler β, Invariant (watched handler) Holds)
    (calls : List (Call β)) (p : Parser) (seen : List Row) (s : β) (layout : Layout p)
    (holds : Holds p (seen, s)) :
    Holds (runCalls calls (p, s)).1
      ((runCalls (calls.map Call.watched) (p, seen, s)).2.1, (runCalls calls (p, s)).2) := by
  have kept := (runCalls_hold (calls.map Call.watched) (by
    intro call member
    obtain ⟨call, -, rfl⟩ := List.mem_map.mp member
    cases call with
    | parseMore handler | finish handler => exact invariant handler) (p, seen, s) layout holds).2
  obtain ⟨noted, same⟩ := runCalls_watched calls p seen s
  rw [same] at kept ⊢
  exact kept

theorem invariant_generation (handler : RowHandler β) (generation : Nat) :
    Invariant handler fun p _ => generation ≤ p.generation where
  begins := fun _ _ _ reached => Nat.le_succ_of_le reached
  moves := by
    intro p q s layout move reached
    rw [move.continues.generation]
    exact reached
  delivers := fun _ _ _ _ reached => reached
  ends := fun _ _ _ _ reached => reached

theorem keeps_of_seen (calls : List (Call β)) (p : Parser) (seen : List Row) (s : β)
    (layout : Layout p) (before : ∀ row ∈ seen, Keeps p row) :
    ∀ row ∈ (runCalls (calls.map Call.watched) (p, seen, s)).2.1,
      Keeps (runCalls calls (p, s)).1 row :=
  noted_hold invariant_watched calls p seen s layout before

theorem layout_later (calls : List (Call β)) (state : Parser × β) (layout : Layout state.1) :
    Layout (runCalls calls state).1 :=
  (runCalls_hold calls (fun call _ => invariant_generation call.handler 0) state layout
    (Nat.zero_le _)).1

theorem keeps_later {source : Source} {options : Options} {p : Parser}
    (made : Parser.new source options = .ok p) (earlier later : List (Call β)) (s : β)
    {row : Row} (seen : row ∈ rowsSeen earlier (p, s)) :
    Layout (runCalls later (runCalls earlier (p, s))).1 ∧
      Keeps (runCalls later (runCalls earlier (p, s))).1 row := by
  have laid := layout_new made
  have kept := keeps_of_seen earlier p [] s laid (fun _ none => absurd none List.not_mem_nil)
    row seen
  exact runCalls_hold later (fun call _ => invariant_keeps call.handler row) _
    (layout_later earlier (p, s) laid) kept

theorem generation_le_later {source : Source} {options : Options} {p : Parser}
    (made : Parser.new source options = .ok p) (earlier later : List (Call β)) (s : β) :
    (runCalls earlier (p, s)).1.generation ≤
      (runCalls later (runCalls earlier (p, s))).1.generation :=
  (runCalls_hold later (fun call _ => invariant_generation call.handler _) _
    (layout_later earlier (p, s) (layout_new made)) (Nat.le_refl _)).2

end Parser

/-! ## Rows kept in a cache -/

open Table

/-- How something handed out with a row reads when a parser has come to the given generation. -/
def readAt {α : Type} (row : Row) (generation : Nat) (handedOut : α) : Except Error α :=
  if row.generation = generation then .ok handedOut
  else .error (.staleCell row.generation generation)

theorem cell_borrowed {p : Parser} {row : Row} (layout : p.Layout) (keeps : p.Keeps row)
    (id : Int) (index : Nat) :
    (CachedRow.borrowed row id).cell index p.resolve =
      match row.cells[index]? with
      | none => .ok none
      | some cell => readAt row p.generation (some cell) := by
  have found : row.cells[index]? = row.spans[index]?.map row.cell := by
    rw [Row.cells, List.getElem?_map, Array.getElem?_toList]
  rw [found]
  unfold CachedRow.cell CachedRow.borrowed
  cases located : row.spans[index]? with
  | none => simp only [located, Option.map_none]
  | some span =>
    have member : span ∈ row.spans := Array.mem_of_getElem? located
    simp only [located, Option.map_some, Parser.resolve_of_keeps layout keeps member, readAt]
    by_cases current : row.generation = p.generation
    · simp only [if_pos current]
      rfl
    · simp only [if_neg current]
      rfl

theorem cell_owned (row : Row) (id : Int) (index : Nat) (source : SpanSource) :
    (CachedRow.owned row id).cell index source = .ok row.cells[index]? := by
  simp only [CachedRow.cell, CachedRow.owned, List.getElem?_toArray]

/-- Every row that was handed out, taken or refused, reads back as it was handed out for as long
as its generation lasts, and is refused ever after; a copy of it reads back always. -/
theorem cells_read_back {β : Type} {source : Source} {options : Options} {p : Parser}
    (made : Parser.new source options = .ok p) (earlier later : List (Parser.Call β)) (s : β) :
    let now := Parser.runCalls earlier (p, s)
    let after := Parser.runCalls later now
    ∀ row ∈ Parser.rowsSeen earlier (p, s),
      (∀ span ∈ row.spans, after.1.resolve span row.generation =
        readAt row after.1.generation (row.cell span).bytes) ∧
      (∀ id index, (CachedRow.borrowed row id).cell index after.1.resolve =
        match row.cells[index]? with
        | none => .ok none
        | some cell => readAt row after.1.generation (some cell)) ∧
      (∀ (cache : RowCache) id index, cache.head? = some (.borrowed row id) →
        cache.peek index after.1.resolve =
          match row.cells[index]? with
          | none => .ok none
          | some cell => readAt row after.1.generation (some cell)) ∧
      (row.generation ≠ now.1.generation → row.generation ≠ after.1.generation) ∧
      (∀ id index, (CachedRow.owned row id).cell index after.1.resolve =
        .ok row.cells[index]?) := by
  intro now after row seen
  obtain ⟨layout, keeps⟩ := Parser.keeps_later made earlier later s seen
  have keepsNow := (Parser.keeps_later made earlier [] s seen).2
  have onward := Parser.generation_le_later made earlier later s
  refine ⟨?_, ?_, ?_, ?_, ?_⟩
  · intro span member
    exact Parser.resolve_of_keeps layout keeps member
  · intro id index
    exact cell_borrowed layout keeps id index
  · intro cache id index head
    rw [RowCache.peek, head]
    exact cell_borrowed layout keeps id index
  · intro stale current
    have older : row.generation ≤ now.1.generation := keepsNow.generation_le
    have same : row.generation = after.1.generation := current
    have between : now.1.generation ≤ after.1.generation := onward
    omega
  · intro id index
    exact cell_owned row id index _

def takeRows : RowHandler Nat := fun _ count =>
  match count with
  | 0 => (.error .outOfMemory, 0)
  | count + 1 => (.ok (), count)

/-- Of the three rows of `a\nb,c\nd`, two are handed out in one call, which refuses the last. The
one before it can be read back, also after a further call. -/
theorem cells_read_back_after_refusal :
    let source := Source.ofBytes [97, 10, 98, 44, 99, 10, 100]
    let options : Options := { bufferSize := 8 }
    let p : Parser := {
      source, options
      tokenizer := { delimiter := options.delimiter }
      window := { capacity := options.readChunk }
      buffer := { capacity := options.bufferSize } }
    let earlier : List (Parser.Call Nat) := [.parseMore takeRows, .finish takeRows]
    let row : Row := {
      number := 2
      generation := 2
      spans := #[⟨0, 1, false⟩, ⟨1, 1, false⟩]
      text := #[98, 99] }
    Parser.new source options = .ok p ∧ row ∈ Parser.rowsSeen earlier (p, 2) ∧
      (Parser.runCalls [.parseMore takeRows] (Parser.runCalls earlier (p, 2))).1.resolve
        ⟨1, 1, false⟩ 2 = .ok [99] := by
  intro source options p earlier row
  have made : Parser.new source options = .ok p := rfl
  have seen : row ∈ Parser.rowsSeen earlier (p, 2) := by decide +kernel
  refine ⟨made, seen, ?_⟩
  obtain ⟨reads, -⟩ := cells_read_back made earlier [.parseMore takeRows] 2 row seen
  have generation : (Parser.runCalls [.parseMore takeRows]
      (Parser.runCalls earlier (p, 2))).1.generation = 2 := by decide +kernel
  have reading := reads ⟨1, 1, false⟩ (by simp [row])
  rw [generation] at reading
  exact reading

end Tabular.Csv
