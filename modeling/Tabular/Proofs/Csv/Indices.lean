import Tabular.Proofs.Csv.Accesses
import Tabular.Proofs.Csv.Failures

/-!
Where the places in the two buffers of a parser stand. The window and the row buffer each have
their own, and whatever source is read and whatever the handlers answer, every move of a parse keeps
them in order. So nothing that a call does with them goes wrong.
-/
namespace Tabular

theorem Source.readBy_length_le (s : Source) (count : Nat) (events : List ReadEvent) {bytes : Bytes}
    (read : (s.readBy count events).1 = .ok bytes) : bytes.length ≤ count := by
  induction events with
  | nil =>
    cases read
    exact List.length_take_le _ _
  | cons event later ih =>
    cases event with
    | atMost limit =>
      cases read
      exact Nat.le_trans (List.length_take_le _ _) (Nat.min_le_right _ _)
    | interrupted => exact ih read
    | failed detail => cases read

end Tabular

namespace Tabular.Csv

/-! ## The window -/

/-- The bytes that wait are the last ones that the window is filled with. -/
structure Window.InOrder (w : Window) : Prop where
  waiting : w.pending.length ≤ w.filled
  filled_le : w.filled ≤ w.capacity

namespace Window.InOrder

variable {w : Window}

theorem stop_eq (ordered : w.InOrder) : w.position + w.pending.length = w.filled :=
  Nat.sub_add_cancel ordered.waiting

theorem used (ordered : w.InOrder) {rest : Bytes} (fewer : rest.length ≤ w.pending.length) :
    Window.InOrder { w with pending := rest } :=
  ⟨Nat.le_trans fewer ordered.waiting, ordered.filled_le⟩

theorem recycled (ordered : w.InOrder) : w.recycled.InOrder := by
  unfold Window.recycled
  split
  · rename_i empty
    rw [List.isEmpty_iff] at empty
    exact ⟨by rw [empty]; exact Nat.le_refl _, Nat.zero_le _⟩
  · exact ordered

theorem request_le (ordered : w.InOrder) (chunk : Nat) :
    w.filled + w.request chunk ≤ w.capacity := by
  have inside := ordered.filled_le
  unfold Window.request
  omega

theorem append (ordered : w.InOrder) {bytes : Bytes} (fits : w.filled + bytes.length ≤ w.capacity) :
    (w.append bytes).InOrder := by
  refine ⟨?_, fits⟩
  have waiting := ordered.waiting
  simp only [Window.append, List.length_append]
  omega

theorem skipMark (ordered : w.InOrder) : w.skipMark.InOrder := by
  unfold Window.skipMark
  split
  · exact ordered.used (by rw [List.length_drop]; exact Nat.sub_le _ _)
  · exact ordered

end Window.InOrder

theorem Tokenizer.readField_rest_le (t : Tokenizer) (input : Bytes) (capacity : Nat)
    (out : Array UInt8) : (t.readField input capacity out).rest.length ≤ input.length := by
  have shorter := t.withoutMark_length_le input
  unfold readField
  dsimp only
  split
  · split <;> exact Nat.zero_le _
  · split
    · exact Nat.le_trans (scan_length_le ..) shorter
    · exact shorter

structure Row.Inside (options : Options) (row : Row) : Prop where
  text_le : row.text.size ≤ options.bufferSize
  spans_le : ∀ span ∈ row.spans, span.stop ≤ row.text.size

namespace Parser

/-! ## Everything in order -/

/-- The window and the row buffer have the sizes that the options ask for, and everything in them is
in order. -/
structure InOrder (options : Options) (p : Parser) : Prop extends Layout p where
  usable : 0 < options.readChunk
  options_eq : p.options = options
  windowSize : p.window.capacity = max options.readChunk byteOrderMark.length
  bufferSize : p.buffer.capacity = options.bufferSize
  window : p.window.InOrder

variable {options : Options} {p q : Parser}

theorem Move.inOrder (move : Move p q) (ordered : InOrder options p) : InOrder options q := by
  have layout := move.layout ordered.toLayout
  have continues := move.continues
  refine { layout with
    usable := ordered.usable
    options_eq := continues.options.trans ordered.options_eq
    windowSize := continues.windowCapacity.trans ordered.windowSize
    bufferSize := continues.bufferCapacity.trans ordered.bufferSize
    window := ?_ }
  cases move with
  | openCell atEnd =>
    have fewer := p.openCell_length_le atEnd
    obtain ⟨pending, quoted, fieldOpen, same⟩ := p.openCell_eq atEnd
    rw [same] at fewer ⊢
    exact ordered.window.used fewer
  | tokenize => exact ordered.window.used (p.tokenizer.readField_rest_le _ _ _)
  | endCell =>
    unfold Parser.endCell
    split <;> exact ordered.window
  | fill =>
    have recycled := ordered.window.recycled
    have filled := p.fill_cases
    rcases result : p.fill with ⟨outcome, q⟩
    rw [result] at filled
    cases filled with
    | ok bytes source read front offset =>
      have few := p.source.readBy_length_le _ p.source.reads (congrArg Prod.fst read)
      have room := recycled.request_le p.options.readChunk
      exact recycled.append (by omega)
    | failed detail source scheduled rest offset => exact recycled
  | skipMark =>
    unfold Parser.skipMark
    dsimp only
    split
    · exact ordered.window.skipMark
    · exact ordered.window

theorem InOrder.of_moves (moves : Moves p q) (ordered : InOrder options p) : InOrder options q :=
  moves.keep (InOrder options) (fun _ _ => Move.inOrder) ordered

theorem InOrder.beginGeneration (ordered : InOrder options p) :
    InOrder options p.beginGeneration :=
  { layout_beginGeneration ordered.toLayout with
    usable := ordered.usable
    options_eq := ordered.options_eq
    windowSize := ordered.windowSize
    bufferSize := by simpa using ordered.bufferSize
    window := ordered.window }

theorem InOrder.afterRow (ordered : InOrder options p) (completed : Completed p) :
    InOrder options p.afterRow :=
  { layout_afterRow ordered.toLayout completed with
    usable := ordered.usable
    options_eq := ordered.options_eq
    windowSize := ordered.windowSize
    bufferSize := ordered.bufferSize
    window := ordered.window }

theorem inOrder_new {source : Source} (made : Parser.new source options = .ok p) :
    InOrder options p := by
  obtain ⟨allowed, rfl⟩ := new_inv made
  exact { layout_initial source options with
    usable := allowed.chunk
    options_eq := rfl
    windowSize := rfl
    bufferSize := rfl
    window := ⟨Nat.le_refl _, Nat.zero_le _⟩ }

/-! ## What each part of a parse uses is sound -/

theorem piece_isSound {start stop size : Nat} (ordered : start ≤ stop) (inside : stop ≤ size) :
    (Access.piece start stop size).isSound = true := by
  simp [Access.isSound, ordered, inside]

theorem InOrder.require_begin (ordered : InOrder options p) :
    require p.beginAccesses = some () := by
  have start := ordered.tiles.le
  have live := ordered.fieldStart_le
  refine require_eq fun access member => ?_
  simp only [beginAccesses, List.mem_cons, List.mem_map] at member
  rcases member with rfl | rfl | rfl | ⟨span, member, rfl⟩
  · exact piece_isSound (Nat.le_trans start live) ordered.live_le
  · exact decide_eq_true (Nat.le_trans start live)
  · exact decide_eq_true start
  · exact decide_eq_true (ordered.tiles.inside member).1

/-- When a parse reads on there is room in the window: either nothing waits, or the window does not
even hold as much as a byte-order mark. -/
theorem InOrder.require_fill (ordered : InOrder options p)
    (short : p.window.pending = [] ∨ p.window.filled < byteOrderMark.length) :
    require p.fillAccesses = some () := by
  have chunk : 0 < p.options.readChunk := by rw [ordered.options_eq]; exact ordered.usable
  have asks := Window.recycled_request_pos chunk
    ((Nat.le_max_right _ _).trans_eq ordered.windowSize.symm) short
  have inside := ordered.window.recycled.request_le p.options.readChunk
  refine require_eq fun access member => ?_
  rw [List.mem_singleton.mp member]
  simp only [Access.isSound, Bool.and_eq_true, decide_eq_true_eq]
  omega

theorem InOrder.require_skipMark (ordered : InOrder options p) :
    require p.skipMarkAccesses = some () := by
  refine require_eq fun access member => ?_
  rw [List.mem_singleton.mp member]
  exact piece_isSound (Nat.zero_le _) ordered.window.filled_le

theorem InOrder.waiting_isSound (ordered : InOrder options p) : p.waiting.isSound = true := by
  refine piece_isSound (Nat.le_add_right _ _) ?_
  rw [ordered.window.stop_eq]
  exact ordered.window.filled_le

theorem InOrder.require_advance (ordered : InOrder options p) (atEnd : Bool) :
    require (p.advanceAccesses atEnd) = some () := by
  have opening := (Move.openCell p atEnd).inOrder ordered
  refine require_eq fun access member => ?_
  unfold advanceAccesses at member
  rcases List.mem_cons.mp member with rfl | member
  · exact ordered.waiting_isSound
  rcases opened : p.openCell atEnd with ⟨begun, r⟩
  rw [opened] at opening member
  cases begun with
  | false => cases member
  | true =>
    rcases List.mem_append.mp member with member | member
    · simp only [tokenizeAccesses, List.mem_cons, List.not_mem_nil, or_false] at member
      rcases member with rfl | rfl
      · exact opening.waiting_isSound
      · exact piece_isSound opening.live_le (Nat.le_refl _)
    · -- What is live only grows while a cell is read, so its end is not before its start.
      have reading := (Move.tokenize r).inOrder opening
      rcases tokenized : r.tokenize with ⟨result, t⟩
      rw [tokenized] at reading member
      cases result with
      | field endsRecord =>
        rw [List.mem_singleton.mp member]
        exact decide_eq_true reading.fieldStart_le
      | inputUsed | noRoom | dataEnd => cases member

theorem InOrder.require_deliver (ordered : InOrder options p) :
    require p.deliverAccesses = some () := by
  refine require_eq fun access member => ?_
  rcases List.mem_cons.mp member with rfl | member
  · exact piece_isSound (Nat.zero_le _) ordered.live_le
  · obtain ⟨span, within, rfl⟩ := List.mem_map.mp member
    exact piece_isSound (Nat.le_add_right _ _) (ordered.span_le within)

/-! ## Tested runs come to something -/

theorem require_bind {α : Type} {accesses : List Access} (sound : require accesses = some ())
    (next : Unit → Option α) : (require accesses >>= next) = next () := by
  rw [sound]
  rfl

theorem InOrder.of_fill {outcome : Except Error Unit} (ordered : InOrder options p)
    (filled : p.fill = (outcome, q)) : InOrder options q :=
  ordered.of_moves (moves_of_fill filled)

theorem InOrder.of_advance {atEnd : Bool} {outcome : Except Error Progress}
    (ordered : InOrder options p) (advanced : p.advance atEnd = (outcome, q)) :
    InOrder options q :=
  ordered.of_moves (moves_of_advance advanced)

theorem fillMark_tested (ordered : InOrder options p) : p.fillMark? = some p.fillMark := by
  fun_induction fillMark p with
  | case1 p ended => rw [fillMark?, dif_pos ended]
  | case2 p ended short error q filled =>
    rw [fillMark?, dif_neg ended, if_pos short,
      require_bind (ordered.require_fill (Or.inr short))]
    split <;> rename_i again <;> cases filled.symm.trans again
    rfl
  | case3 p ended short q filled ih =>
    rw [fillMark?, dif_neg ended, if_pos short,
      require_bind (ordered.require_fill (Or.inr short))]
    split <;> rename_i again <;> cases filled.symm.trans again
    exact ih (ordered.of_fill filled)
  | case4 p ended full => rw [fillMark?, dif_neg ended, if_neg full]

theorem checkMark_tested (ordered : InOrder options p) : p.checkMark? = some p.checkMark := by
  have filling := ordered.of_moves p.fillMark_moves
  unfold checkMark? checkMark
  split
  · rfl
  · rw [fillMark_tested ordered]
    rcases result : p.fillMark with ⟨outcome, q⟩
    rw [result] at filling
    cases outcome with
    | error error => rfl
    | ok _ => exact require_bind filling.require_skipMark _

theorem seekRow_tested (ordered : InOrder options p) : p.seekRow? = some p.seekRow := by
  fun_induction seekRow p with
  | case1 p waits ended => rw [seekRow?, dif_pos waits, dif_pos ended]
  | case2 p waits ended error q filled =>
    rw [seekRow?, dif_pos waits, dif_neg ended,
      require_bind (ordered.require_fill (Or.inl (List.isEmpty_iff.mp waits)))]
    split <;> rename_i again <;> cases filled.symm.trans again
    rfl
  | case3 p waits ended q filled ih =>
    rw [seekRow?, dif_pos waits, dif_neg ended,
      require_bind (ordered.require_fill (Or.inl (List.isEmpty_iff.mp waits)))]
    split <;> rename_i again <;> cases filled.symm.trans again
    exact ih (ordered.of_fill filled)
  | case4 p waits error q advanced | case5 p waits q advanced | case6 p waits q advanced =>
    rw [seekRow?, dif_neg waits, require_bind (ordered.require_advance p.atEnd)]
    split <;> rename_i again <;> cases advanced.symm.trans again
    rfl
  | case7 p waits q advanced ih | case8 p waits q advanced ih =>
    rw [seekRow?, dif_neg waits, require_bind (ordered.require_advance p.atEnd)]
    split <;> rename_i again <;> cases advanced.symm.trans again
    exact ih (ordered.of_advance advanced)

theorem flushRow_tested (ordered : InOrder options p) : p.flushRow? = some p.flushRow := by
  fun_induction flushRow p with
  | case1 p error q advanced | case2 p q advanced | case3 p q advanced =>
    rw [flushRow?, require_bind (ordered.require_advance true)]
    split <;> rename_i again <;> cases advanced.symm.trans again
    rfl
  | case4 p q advanced ih | case5 p q advanced ih =>
    rw [flushRow?, require_bind (ordered.require_advance true)]
    split <;> rename_i again <;> cases advanced.symm.trans again
    exact ih (ordered.of_advance advanced)

variable {β : Type}

theorem step_tested (handler : RowHandler β) (ordered : InOrder options p) (s : β) :
    p.step? handler s = some (p.step handler s) := by
  have marking := ordered.of_moves p.checkMark_moves
  unfold step? step
  rw [checkMark_tested ordered]
  rcases marked : p.checkMark with ⟨found, q⟩
  rw [marked] at marking
  cases found with
  | error error => rfl
  | ok _ =>
    have seeking := marking.of_moves q.seekRow_moves
    show (q.seekRow? >>= _) = _
    rw [seekRow_tested marking]
    dsimp only
    rcases sought : q.seekRow with ⟨found, r⟩
    rw [sought] at seeking
    rcases found with error | _ | _
    · rfl
    · show (require r.deliverAccesses >>= _) = _
      rw [require_bind seeking.require_deliver]
      dsimp only
      rcases handler r.completedRow s with ⟨error | _, t⟩ <;> rfl
    · rfl

theorem flush_tested (handler : RowHandler β) (ordered : InOrder options p) (s : β) :
    p.flush? handler s = some (p.flush handler s) := by
  fun_induction Parser.flush handler p s with
  | case1 p s error q found | case2 p s q found =>
    rw [flush?]
    split <;> rename_i again <;> rw [flushRow_tested ordered, found] at again <;> cases again
    rfl
  | case3 p s q found error t handled =>
    rw [flush?]
    split <;> rename_i again <;> rw [flushRow_tested ordered, found] at again <;> cases again
    rw [require_bind (ordered.of_moves (moves_of_flushRow found)).require_deliver, handled]
  | case4 p s q found t handled ih =>
    have seeking := ordered.of_moves (moves_of_flushRow found)
    rw [flush?]
    split <;> rename_i again <;> rw [flushRow_tested ordered, found] at again <;> cases again
    rw [require_bind seeking.require_deliver, handled]
    exact ih (seeking.afterRow (flushRow_completed found))

theorem parseMore_tested (handler : RowHandler β) (ordered : InOrder options p) (s : β) :
    p.parseMore? handler s = some (p.parseMore handler s) := by
  unfold parseMore? parseMore
  cases p.status with
  | ready =>
    dsimp only
    rw [require_bind ordered.require_begin, step_tested handler ordered.beginGeneration]
    rcases p.beginGeneration.step handler s with ⟨error | _ | _, q, t⟩ <;> rfl
  | exhausted | finished | failed description => rfl

theorem InOrder.atFinish (ordered : InOrder options p) : InOrder options p.atFinish := by
  have begun : InOrder options { p.beginGeneration with atEnd := true } :=
    { ordered.beginGeneration with }
  unfold Parser.atFinish
  split
  · exact begun
  · exact (Move.skipMark _).inOrder begun

theorem finish_tested (handler : RowHandler β) (ordered : InOrder options p) (s : β) :
    p.finish? handler s = some (p.finish handler s) := by
  have mark : require (if p.markChecked then [] else p.beginGeneration.skipMarkAccesses) =
      some () := by
    split
    · rfl
    · exact ordered.beginGeneration.require_skipMark
  rcases flushed : p.atFinish.flush handler s with ⟨outcome, q, t⟩
  have open_ := fun open_ => finish_open handler open_ flushed
  unfold finish?
  cases status : p.status with
  | ready | exhausted =>
    rw [open_ (by simp [status])]
    dsimp only
    rw [require_bind ordered.require_begin, require_bind mark,
      flush_tested handler ordered.atFinish, flushed]
    cases outcome <;> rfl
  | finished | failed description =>
    unfold finish
    rw [status]

/-! ## Runs -/

theorem invariant_inOrder (handler : RowHandler β) (options : Options) :
    Invariant handler fun p _ => InOrder options p where
  begins := fun _ _ _ ordered => ordered.beginGeneration
  moves := fun _ _ _ _ move ordered => move.inOrder ordered
  delivers := fun _ _ _ completed ordered => ordered.afterRow completed
  ends := fun _ _ _ _ ordered => { ordered with }

theorem Call.run_inOrder (call : Call β) {state : Parser × β} (ordered : InOrder options state.1) :
    InOrder options (call.run state).1 :=
  (Call.run_hold (invariant_inOrder call.handler options) state ordered.toLayout ordered).2

theorem runCalls_inOrder (calls : List (Call β)) {state : Parser × β}
    (ordered : InOrder options state.1) : InOrder options (runCalls calls state).1 :=
  (runCalls_hold calls (fun call _ => invariant_inOrder call.handler options) state
    ordered.toLayout ordered).2

theorem Call.run_tested (call : Call β) {state : Parser × β} (ordered : InOrder options state.1) :
    call.run? state = some (call.run state) := by
  cases call with
  | parseMore handler => simp only [run?, parseMore_tested handler ordered, run, Option.map_some]
  | finish handler => simp only [run?, finish_tested handler ordered, run, Option.map_some]

theorem runCalls_tested (calls : List (Call β)) {state : Parser × β}
    (ordered : InOrder options state.1) :
    runCalls? calls state = some (runCalls calls state) := by
  induction calls generalizing state with
  | nil => rfl
  | cons call rest ih =>
    rw [runCalls?, List.foldlM_cons, call.run_tested ordered]
    exact ih (call.run_inOrder ordered)

/-! ## Rows handed out -/

theorem InOrder.completedRow (ordered : InOrder options p) : Row.Inside options p.completedRow where
  text_le := ordered.live_le.trans_eq ordered.bufferSize
  spans_le := (keeps_completedRow ordered.toLayout).inside

theorem invariant_inside (handler : RowHandler β) (options : Options) :
    Invariant (watched handler) fun p state =>
      InOrder options p ∧ ∀ row ∈ state.1, Row.Inside options row where
  begins := fun _ _ _ holds => ⟨holds.1.beginGeneration, holds.2⟩
  moves := fun _ _ _ _ move holds => ⟨move.inOrder holds.1, holds.2⟩
  delivers := by
    intro p state layout completed ⟨ordered, inside⟩
    refine ⟨ordered.afterRow completed, fun row seen => ?_⟩
    rcases List.mem_append.mp seen with earlier | now
    · exact inside row earlier
    · rw [List.mem_singleton.mp now]
      exact ordered.completedRow
  ends := fun _ _ _ _ holds => ⟨{ holds.1 with }, holds.2⟩

theorem rowsSeen_inside (calls : List (Call β)) (s : β) (ordered : InOrder options p) :
    ∀ row ∈ rowsSeen calls (p, s), Row.Inside options row :=
  (noted_hold (fun handler => invariant_inside handler options) calls p [] s ordered.toLayout
    ⟨ordered, fun _ none => absurd none List.not_mem_nil⟩).2

/-! ## The end of the data -/

theorem Supplied.parseMore (handler : RowHandler β) (supplied : Supplied p) (s : β) :
    Supplied (p.parseMore handler s).2.1 := by
  by_cases ready : p.status = .ready
  · rw [parseMore_look handler ready s]
    exact Supplied.handOver supplied.beginGeneration.look
  · rw [parseMore_over handler s ready]
    exact supplied

theorem Supplied.runCalls (calls : List (Call β)) {state : Parser × β}
    (reading : ∀ handler, .finish handler ∉ calls) (supplied : Supplied state.1) :
    Supplied (runCalls calls state).1 := by
  induction calls generalizing state with
  | nil => exact supplied
  | cons call rest ih =>
    refine ih (fun handler later => reading handler (List.mem_cons_of_mem _ later)) ?_
    cases call with
    | parseMore handler => exact supplied.parseMore handler state.2
    | finish handler => exact absurd List.mem_cons_self (reading handler)

end Parser

/-- Whatever calls are made of a new parser, over any source and with any answers to its rows, the
places in its buffers are in order afterwards: what waits is the end of what the window is filled
with, and the cells of the record in hand lie side by side from its start to the cell in hand. No
call takes anything below zero, leaves a buffer, hands out a cell that is not in the row, or reads
into nothing. So a parse over a sound source that has not been told to finish takes nothing but its
end for the end of the data. -/
theorem indices_in_order {β : Type} {source : Source} {options : Options} {p : Parser}
    (made : Parser.new source options = .ok p) (calls : List (Parser.Call β)) (s : β) :
    let q := (Parser.runCalls calls (p, s)).1
    (q.window.position + q.window.pending.length = q.window.filled ∧
      q.window.filled ≤ q.window.capacity ∧
      q.window.capacity = max options.readChunk byteOrderMark.length) ∧
    (q.rowStart ≤ q.fieldStart ∧ q.fieldStart ≤ q.buffer.live.size ∧
      q.buffer.live.size ≤ q.buffer.capacity ∧ q.buffer.capacity = options.bufferSize) ∧
    (Tiles q.rowStart q.spans.toList q.fieldStart ∧ q.spans.size ≤ options.maxColumns) ∧
    (Parser.InOrder options q.beginGeneration ∧ q.beginGeneration.rowStart = 0) ∧
    Parser.runCalls? calls (p, s) = some (Parser.runCalls calls (p, s)) ∧
    (∀ row ∈ Parser.rowsSeen calls (p, s), row.text.size ≤ options.bufferSize ∧
      ∀ span ∈ row.spans, span.stop ≤ row.text.size) ∧
    (source.Sound → (∀ handler, .finish handler ∉ calls) → q.atEnd = true →
      q.source.rest = []) := by
  intro q
  have start := Parser.inOrder_new made
  have ordered : Parser.InOrder options q := Parser.runCalls_inOrder calls start
  obtain ⟨allowed, rfl⟩ := Parser.new_inv made
  refine ⟨⟨ordered.window.stop_eq, ordered.window.filled_le, ordered.windowSize⟩,
    ⟨ordered.tiles.le, ordered.fieldStart_le, ordered.live_le, ordered.bufferSize⟩,
    ⟨ordered.tiles, ?_⟩, ⟨ordered.beginGeneration, rfl⟩,
    Parser.runCalls_tested calls start, ?_, ?_⟩
  · rw [← ordered.options_eq]
    exact ordered.columns_le
  · intro row seen
    have inside := Parser.rowsSeen_inside calls s start row seen
    exact ⟨inside.text_le, inside.spans_le⟩
  · intro sound reading
    exact (Parser.Supplied.runCalls calls reading (Parser.initial_supplied sound allowed)).ended

/-- The byte-order mark in front of `a,b\nc` comes in two reads and fills the window. Behind the one
complete record the end of the source is seen, with `c` still in hand. -/
theorem indices_in_order_split_mark :
    let source := Source.ofBytes [239, 187, 191, 97, 44, 98, 10, 99] [.atMost 2, .interrupted]
    let options : Options := { bufferSize := 4, readChunk := 2 }
    let p := Parser.initial source options
    let calls : List (Parser.Call Nat) := [.parseMore takeRows, .parseMore takeRows]
    let q := (Parser.runCalls calls (p, 5)).1
    Parser.new source options = .ok p ∧ source.Sound ∧
      Parser.runCalls? calls (p, 5) = some (Parser.runCalls calls (p, 5)) ∧
      q.buffer.live.size = 1 ∧ q.atEnd = true ∧ q.source.rest = [] := by
  intro source options p calls q
  have made : Parser.new source options = .ok p := rfl
  have sound : source.Sound := Source.Steady.sound (by decide)
  have ended : q.atEnd = true := by decide +kernel
  have size : q.buffer.live.size = 1 := by decide +kernel
  obtain ⟨-, -, -, -, tested, -, nothing⟩ := indices_in_order made calls 5
  exact ⟨made, sound, tested, size, ended, nothing sound (by simp [calls]) ended⟩

end Tabular.Csv
