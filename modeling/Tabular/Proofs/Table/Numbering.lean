import Tabular.Proofs.Csv.HandedOver
import Tabular.Proofs.Table.Lookahead

/-!
The numbers of rows. Whatever is called on a session, in whatever order, and whatever its source does,
one row at most is ever kept for the header, the rows of data that come from one parse are its records
behind the first, numbered from 1, and a session that has failed keeps nothing until it begins again.
-/
namespace Tabular.Table

open Csv

variable {content : Bytes} {options : Csv.Options} {p q : Parser} {rows : List Row}

/-! ## One parse -/

/-- A parse of `content` from its start that has handed over `rows` and is now at a parser. -/
inductive Parses (content : Bytes) (options : Csv.Options) : Parser → List Row → Prop where
  | start (reads : List ReadEvent) (seeks : List (Option String)) :
      Parses content options (.initial (.ofBytes content reads seeks) options) []
  | step {p q : Parser} {rows more : List Row} {outcome : Except Error StepOutcome}
      (before : Parses content options p rows) (steps : p.Steps outcome q more) :
      Parses content options q (rows ++ more)
  | finish {p q : Parser} {rows more : List Row} {outcome : Except Error Unit}
      (before : Parses content options p rows) (finishes : p.Finishes outcome q more) :
      Parses content options q (rows ++ more)

theorem Parses.calls (parse : Parses content options p rows) :
    ∃ (reads : List ReadEvent) (seeks : List (Option String)) (calls : List (Parser.Call Unit)),
      (∀ call ∈ calls, call.handler = Parser.takeAll) ∧
        (Parser.runCalls calls (.initial (.ofBytes content reads seeks) options, ())).1 = p ∧
        Parser.rowsSeen calls (.initial (.ofBytes content reads seeks) options, ()) = rows := by
  have taking : ∀ row t, (Parser.takeAll row t).1 = .ok () := fun _ _ => rfl
  have more : ∀ {calls : List (Parser.Call Unit)} {last : Parser.Call Unit},
      (∀ call ∈ calls, call.handler = Parser.takeAll) → last.handler = Parser.takeAll →
        ∀ call ∈ calls ++ [last], call.handler = Parser.takeAll := by
    intro calls last all this call member
    rcases List.mem_append.mp member with earlier | now
    · exact all call earlier
    · rw [List.mem_singleton.mp now]
      exact this
  induction parse with
  | start reads seeks =>
    exact ⟨reads, seeks, [], fun _ none => absurd none List.not_mem_nil, rfl, rfl⟩
  | step before steps ih =>
    obtain ⟨reads, seeks, calls, all, rfl, rfl⟩ := ih
    exact ⟨reads, seeks, calls ++ [.parseMore Parser.takeAll], more all rfl, steps.seen taking⟩
  | finish before finishes ih =>
    obtain ⟨reads, seeks, calls, all, rfl, rfl⟩ := ih
    exact ⟨reads, seeks, calls ++ [.finish Parser.takeAll], more all rfl, finishes.seen taking⟩

theorem Parses.numbers (parse : Parses content options p rows) :
    rows.map Row.number = List.range' 1 rows.length := by
  obtain ⟨reads, seeks, calls, -, -, rfl⟩ := parse.calls
  exact Parser.rowsSeen_numbers _ options calls ()

theorem Parses.content_eq (parse : Parses content options p rows) : p.source.content = content := by
  obtain ⟨reads, seeks, calls, -, rfl, -⟩ := parse.calls
  exact (Parser.counted_calls calls () (Parser.layout_initial _ _)).content

/-! ## Rows received -/

/-- A row of data as it is kept. The number of the record behind the header is 1. -/
def dataRow (row : Row) : CachedRow := .borrowed row (row.number - 1)

structure Numbers (sink : Sink) (nextId : Int) (rows : List Row) : Prop where
  first : rows = [] ↔ sink ≠ .data
  nextId : nextId = max 1 rows.length

/-- What is kept as `rows` grow to `rows'`: the new rows of data, and the header once. -/
structure Intake.Adds (i j : Intake) (rows rows' : List Row) : Prop where
  data : ∃ new, rows'.tail = rows.tail ++ new ∧
    j.caches.data.rows.toList = i.caches.data.rows.toList ++ new.map dataRow
  header : ∃ new, j.caches.header.rows.toList = i.caches.header.rows.toList ++ new ∧
    (new = [] ∨ i.sink = .header ∧ ∃ row, new = [.owned row 0]) ∧
    (j.sink = .header → i.sink = .header ∧ new = [])

theorem Intake.Adds.none {i j : Intake} (caches : j.caches = i.caches) (sink : j.sink = i.sink)
    (rows : List Row) : i.Adds j rows rows where
  data := ⟨[], (List.append_nil _).symm, by rw [caches, List.map_nil, List.append_nil]⟩
  header := ⟨[], by rw [caches, List.append_nil], Or.inl rfl, fun is => ⟨sink ▸ is, rfl⟩⟩

theorem Intake.Adds.trans {i j k : Intake} {rows rows' rows'' : List Row}
    (first : i.Adds j rows rows') (second : j.Adds k rows' rows'') : i.Adds k rows rows'' where
  data := by
    obtain ⟨new, tail, data⟩ := first.data
    obtain ⟨new', tail', data'⟩ := second.data
    refine ⟨new ++ new', ?_, ?_⟩
    · rw [tail', tail, List.append_assoc]
    · rw [data', data, List.map_append, List.append_assoc]
  header := by
    obtain ⟨new, header, some, none⟩ := first.header
    obtain ⟨new', header', some', none'⟩ := second.header
    refine ⟨new ++ new', by rw [header', header, List.append_assoc], ?_, fun is => ?_⟩
    · rcases some' with rfl | ⟨sink, row, rfl⟩
      · rw [List.append_nil]
        exact some
      · -- The header is still looked for, so that nothing was kept for it before.
        obtain ⟨sink', rfl⟩ := none sink
        exact Or.inr ⟨sink', row, rfl⟩
    · obtain ⟨sink, rfl⟩ := none' is
      obtain ⟨sink', rfl⟩ := none sink
      exact ⟨sink', rfl⟩

theorem Numbers.received {i : Intake} (numbers : Numbers i.sink i.nextId rows) {row : Row}
    (number : row.number = rows.length + 1) :
    Numbers (i.received row).sink (i.received row).nextId (rows ++ [row]) ∧
      i.Adds (i.received row) rows (rows ++ [row]) := by
  have more : rows ++ [row] ≠ [] := List.append_ne_nil_of_right_ne_nil _ (List.cons_ne_nil _ _)
  have length : (rows ++ [row]).length = rows.length + 1 := List.length_append
  have nextId := numbers.nextId
  cases sink : i.sink with
  | header =>
    obtain rfl := numbers.first.mpr (by rw [sink]; exact Sink.noConfusion)
    rw [received_header sink]
    refine ⟨⟨⟨fun none => absurd none more, fun other => absurd rfl other⟩, nextId⟩, ⟨[], rfl, ?_⟩,
      ⟨[.owned row 0], Array.toList_push, Or.inr ⟨sink, row, rfl⟩, fun is => (by cases is)⟩⟩
    exact (List.append_nil _).symm
  | skipHeader =>
    obtain rfl := numbers.first.mpr (by rw [sink]; exact Sink.noConfusion)
    rw [received_skipHeader sink]
    refine ⟨⟨⟨fun none => absurd none more, fun other => absurd rfl other⟩, nextId⟩, ⟨[], rfl, ?_⟩,
      ⟨[], (List.append_nil _).symm, Or.inl rfl, fun is => (by cases is)⟩⟩
    exact (List.append_nil _).symm
  | data =>
    have some : rows ≠ [] := fun none => numbers.first.mp none sink
    have positive : 0 < rows.length := List.length_pos_iff.mpr some
    have id : i.nextId = row.number - 1 := by omega
    rw [received_data sink]
    refine ⟨⟨⟨fun none => absurd none more, fun other => absurd sink other⟩, ?_⟩, ⟨[row], ?_, ?_⟩,
      ⟨[], (List.append_nil _).symm, Or.inl rfl, fun is => ?_⟩⟩
    · show i.nextId + 1 = _
      omega
    · exact List.tail_append_of_ne_nil some
    · rw [List.map_singleton, dataRow, ← id]
      exact Array.toList_push
    · cases sink.symm.trans is

theorem Numbers.foldl {i : Intake} (numbers : Numbers i.sink i.nextId rows) {more : List Row}
    (numbered : (rows ++ more).map Row.number = List.range' 1 (rows ++ more).length) :
    Numbers (more.foldl Intake.received i).sink (more.foldl Intake.received i).nextId (rows ++ more) ∧
      i.Adds (more.foldl Intake.received i) rows (rows ++ more) := by
  induction more generalizing i rows with
  | nil =>
    rw [List.append_nil]
    exact ⟨numbers, .none rfl rfl rows⟩
  | cons row rest ih =>
    have number : row.number = rows.length + 1 := by
      have there := congrArg (·[rows.length]?) numbered
      simpa [Nat.add_comm] using there
    obtain ⟨next, adds⟩ := numbers.received number
    rw [List.append_cons] at numbered ⊢
    obtain ⟨last, adds'⟩ := ih next numbered
    exact ⟨last, adds.trans adds'⟩

/-! ## One call of a session -/

variable {s : Session} {caches : Caches} {α : Type}

/-- A session that brings no row until it begins again. -/
structure Stopped (s : Session) : Prop where
  status : s.status ≠ .ready
  ended : ∀ q, s.parser = some q → q.IsOver

structure Within (content : Bytes) (options : Csv.Options) (p : Parser) (rows : List Row)
    (s : Session) : Prop where
  parse : Parses content options p rows
  parser : ∀ q, s.parser = some q → q = p
  options_eq : s.options = options
  ready : s.status = .ready → ∃ q, s.parser = some q
  numbers : s.parser ≠ none → Numbers s.sink s.nextId rows
  failed : ∀ description, s.status = .failed description → Stopped s

/-- A call of a session that has handed over `rows` comes to `result`, with `more` rows. -/
structure Brings (content : Bytes) (options : Csv.Options) (rows : List Row) (s : Session)
    (caches : Caches) (q : Parser) (more : List Row) (result : Except Error α × Session × Caches) :
    Prop where
  within : Within content options q (rows ++ more) result.2.1
  adds : (s.intake caches).Adds (result.2.1.intake result.2.2) rows (rows ++ more)
  stopped : ∀ error, result.1 = .error error → Stopped result.2.1

theorem Within.idle (within : Within content options p rows s) {outcome : Except Error α}
    (stopped : ∀ error, outcome = .error error → Stopped s) (caches : Caches) :
    Brings content options rows s caches p [] (outcome, s, caches) where
  within := by
    rw [List.append_nil]
    exact within
  adds := by
    rw [List.append_nil]
    exact .none rfl rfl rows
  stopped := stopped

theorem Within.stepOnce (within : Within content options p rows s) (parser : s.parser = some p)
    (ready : s.status = .ready) (caches : Caches) :
    ∃ q more, more.length ≤ 1 ∧ Brings content options rows s caches q more (s.stepOnce caches) ∧
      ((s.stepOnce caches).1 = .ok .progressed → (s.stepOnce caches).2.1.parser = some q ∧
        (s.stepOnce caches).2.1.status = .ready) := by
  obtain ⟨outcome, q, more, steps⟩ := p.exists_steps
  have parse := within.parse.step steps
  have numbers := within.numbers (by rw [parser]; exact Option.some_ne_none p)
  obtain ⟨next, adds⟩ := numbers.foldl (i := s.intake caches) parse.numbers
  have run := steps.run receive_takes (s.intake caches)
  rw [feed_receive] at run
  -- In which status the session is left is all that the outcomes differ in.
  have left : ∀ status, (∀ description, status = .failed description → q.IsOver) →
      Within content options q (rows ++ more)
        (s.after q (more.foldl Intake.received (s.intake caches)) status) := fun status ended => {
    parse
    parser := fun r is => (Option.some.inj is).symm
    options_eq := within.options_eq
    ready := fun _ => ⟨q, rfl⟩
    numbers := fun _ => next
    failed := fun description failed => ⟨by rw [failed]; exact SessionStatus.noConfusion,
      fun r is => Option.some.inj is ▸ ended description failed⟩ }
  unfold Session.stepOnce
  rw [parser]
  dsimp only
  rw [show p.parseMore Intake.receive { sink := s.sink, nextId := s.nextId, caches } = _ from run]
  refine ⟨q, more, steps.single, ?_⟩
  rcases outcome with error | _ | _
  · obtain ⟨description, status⟩ := steps.failed error rfl
    have ended : q.IsOver := ⟨by rw [status]; exact ParserStatus.noConfusion, by
      rw [status]
      exact ParserStatus.noConfusion⟩
    have later := left (.failed error.message) fun _ _ => ended
    exact ⟨⟨later, adds, fun _ _ => later.failed _ rfl⟩, fun other => (by cases other)⟩
  · have later := left s.status fun description failed => by
      rw [ready] at failed
      cases failed
    exact ⟨⟨later, adds, fun _ other => (by cases other)⟩, fun _ => ⟨rfl, ready⟩⟩
  · have later := left .exhausted fun description failed => by cases failed
    exact ⟨⟨later, adds, fun _ other => (by cases other)⟩, fun other => (by cases other)⟩

theorem Brings.andThen {β : Type} {more more' : List Row} {outcome : Except Error α} {s' : Session}
    {caches' : Caches} {result : Except Error β × Session × Caches}
    (first : Brings content options rows s caches p more (outcome, s', caches'))
    (second : Brings content options (rows ++ more) s' caches' q more' result) :
    Brings content options rows s caches q (more ++ more') result where
  within := by
    rw [← List.append_assoc]
    exact second.within
  adds := by
    rw [← List.append_assoc]
    exact first.adds.trans second.adds
  stopped := second.stopped

theorem Within.advance (within : Within content options p rows s) (caches : Caches) :
    ∃ q more, (rows ++ more).tail.length ≤ rows.tail.length + 1 ∧
      Brings content options rows s caches q more (s.advance caches) := by
  cases status : s.status with
  | failed description =>
    unfold Session.advance
    rw [status]
    exact ⟨p, [], by rw [List.append_nil]; exact Nat.le_succ _,
      within.idle (fun _ _ => within.failed description status) caches⟩
  | exhausted =>
    unfold Session.advance
    rw [status]
    exact ⟨p, [], by rw [List.append_nil]; exact Nat.le_succ _,
      within.idle (fun _ other => (by cases other)) caches⟩
  | ready =>
    obtain ⟨_, parser⟩ := within.ready status
    obtain rfl := within.parser _ parser
    have numbers := within.numbers (by rw [parser]; exact Option.some_ne_none _)
    obtain ⟨q, more, single, brings, going⟩ := within.stepOnce parser status caches
    have few : (rows ++ more).tail.length ≤ rows.tail.length + 1 := by
      rw [List.length_tail, List.length_tail, List.length_append]
      omega
    by_cases sink : s.sink = .skipHeader
    · obtain rfl := numbers.first.mpr (by rw [sink]; exact Sink.noConfusion)
      unfold Session.advance
      rw [status, sink]
      dsimp only
      rcases stepped : s.stepOnce caches with ⟨outcome, s', caches'⟩
      rw [stepped] at brings going
      rcases outcome with error | _ | _
      · exact ⟨q, more, few, brings⟩
      · obtain ⟨parser', ready⟩ := going rfl
        obtain ⟨r, more', single', brings', -⟩ := brings.within.stepOnce parser' ready caches'
        refine ⟨r, more ++ more', ?_, brings.andThen brings'⟩
        rw [List.length_tail, List.nil_append, List.length_append]
        omega
      · exact ⟨q, more, few, brings⟩
    · have once : s.advance caches = s.stepOnce caches := by
        unfold Session.advance
        rw [status]
        cases kept : s.sink with
        | skipHeader => exact absurd kept sink
        | header | data => rfl
      rw [once]
      exact ⟨q, more, few, brings⟩

theorem Within.finish (within : Within content options p rows s) (caches : Caches) :
    ∃ q more, Brings content options rows s caches q more (s.finish caches) := by
  unfold Session.finish
  split
  · exact ⟨p, [], within.idle (fun _ other => (by cases other)) caches⟩
  split
  · rename_i parser
    have finished : Within content options p rows { s with finished := true } := { within with
      failed := fun description failed => { within.failed description failed with } }
    have idle : Brings content options rows { s with finished := true } caches p []
        (Except.ok (), { s with finished := true }, caches) :=
      finished.idle (fun _ other => (by cases other)) caches
    exact ⟨p, [], { idle with }⟩
  · rename_i _ parser
    obtain rfl := within.parser _ parser
    obtain ⟨outcome, q, more, finishes⟩ := Parser.exists_finishes _
    have parse := within.parse.finish finishes
    have numbers := within.numbers (by rw [parser]; exact Option.some_ne_none _)
    obtain ⟨next, adds⟩ := numbers.foldl (i := s.intake caches) parse.numbers
    have run := finishes.run receive_takes (s.intake caches)
    rw [feed_receive] at run
    rw [← Session.intake, run]
    -- The parse is over, whatever finishing comes to.
    have left : ∀ status, (status = .ready → s.status = .ready) →
        Within content options q (rows ++ more) { s.after q
          (more.foldl Intake.received (s.intake caches)) status with finished := true } :=
      fun status _ => {
        parse
        parser := fun r is => (Option.some.inj is).symm
        options_eq := within.options_eq
        ready := fun _ => ⟨q, rfl⟩
        numbers := fun _ => next
        failed := fun description failed => ⟨by rw [failed]; exact SessionStatus.noConfusion,
          fun r is => Option.some.inj is ▸ finishes.ended⟩ }
    refine ⟨q, more, ?_⟩
    rcases outcome with error | _
    · have later := left (.failed error.message) fun other => by cases other
      exact ⟨later, adds, fun _ _ => later.failed _ rfl⟩
    · exact ⟨left s.status id, adds, fun _ other => (by cases other)⟩

theorem Stopped.advance (stopped : Stopped s) (caches : Caches) : (s.advance caches).2 = (s, caches) := by
  unfold Session.advance
  cases status : s.status with
  | ready => exact absurd status stopped.status
  | exhausted | failed description => rfl

theorem Stopped.finish (stopped : Stopped s) (caches : Caches) :
    Stopped (s.finish caches).2.1 ∧ (s.finish caches).2.2 = caches := by
  unfold Session.finish
  split
  · exact ⟨stopped, rfl⟩
  split
  · exact ⟨{ stopped with }, rfl⟩
  · rename_i _ p parser
    obtain ⟨outcome, q, more, finishes⟩ := p.exists_finishes
    obtain rfl := finishes.idle (stopped.ended p parser)
    rw [finishes.run receive_takes]
    have ended : ∀ r, some q = some r → r.IsOver := fun r is => Option.some.inj is ▸ finishes.ended
    cases outcome with
    | error error => exact ⟨⟨SessionStatus.noConfusion, ended⟩, rfl⟩
    | ok _ => exact ⟨⟨stopped.status, ended⟩, rfl⟩

theorem Within.rewind (within : Within content options p rows s) (headerCached : Bool) :
    (∃ q, Within content options q [] (s.rewind headerCached).2) ∧
      (∀ error, (s.rewind headerCached).1 = .error error → Stopped (s.rewind headerCached).2) ∧
      ((s.rewind headerCached).2.sink = .header → s.sink = .header ∨ headerCached = false) := by
  unfold Session.rewind
  rcases restarted : s.restart with error | q
  · have gone : ∀ r, (none : Option Parser) = some r → r.IsOver := fun r is => by cases is
    refine ⟨⟨_, {
      parse := .start [] []
      parser := fun r is => by cases is
      options_eq := within.options_eq
      ready := fun other => by cases other
      numbers := fun some => absurd rfl some
      failed := fun _ _ => ⟨SessionStatus.noConfusion, gone⟩ }⟩,
      fun _ _ => ⟨SessionStatus.noConfusion, gone⟩, Or.inl⟩
  · have parse : Parses content options q [] := by
      unfold Session.restart at restarted
      split at restarted
      · cases restarted
      · rename_i r parser
        obtain rfl := within.parser r parser
        have whole := within.parse.content_eq
        unfold Source.rewind at restarted
        split at restarted
        · cases restarted
        · rename_i source rewound
          obtain ⟨-, rfl⟩ := Parser.new_inv restarted
          split at rewound
          · cases rewound
          · obtain ⟨-, rfl⟩ := Prod.mk.inj rewound
            rw [within.options_eq, whole]
            exact .start _ _
    refine ⟨⟨q, {
      parse
      parser := fun r is => (Option.some.inj is).symm
      options_eq := within.options_eq
      ready := fun _ => ⟨q, rfl⟩
      numbers := fun _ => ⟨⟨fun _ => ?_, fun _ => rfl⟩, rfl⟩
      failed := fun _ other => by cases other }⟩, fun _ other => (by cases other), fun is => ?_⟩
    · cases headerCached <;> exact Sink.noConfusion
    · cases headerCached with
      | false => exact Or.inr rfl
      | true => cases is

/-! ## Any calls of a session -/

inductive Session.Call where
  | advance
  | finish
  | close
  | rewind
  /-- The first row of data is dropped. -/
  | pop
  /-- All rows of data are dropped. -/
  | clear
  deriving DecidableEq, Repr

def Session.Call.run : Session.Call → Session → Caches → Except Error Unit × Session × Caches
  | .advance, s, caches => ((s.advance caches).1.map fun _ => (), (s.advance caches).2)
  | .finish, s, caches => s.finish caches
  | .close, s, caches => (.ok (), s.close, caches)
  | .rewind, s, caches =>
    ((s.rewind (!caches.header.isEmpty)).1, (s.rewind (!caches.header.isEmpty)).2, caches)
  | .pop, s, caches => (.ok (), s, { caches with data := caches.data.pop })
  | .clear, s, caches => (.ok (), s, { caches with data := {} })

/-- Moving on and finishing bring rows, moving on one row of data at most. -/
theorem Within.brings (within : Within content options p rows s) {call : Session.Call}
    (bringing : call = .advance ∨ call = .finish) (caches : Caches) :
    ∃ q more, (call = .advance → (rows ++ more).tail.length ≤ rows.tail.length + 1) ∧
      Brings content options rows s caches q more (call.run s caches) := by
  rcases bringing with rfl | rfl
  · obtain ⟨q, more, few, brings⟩ := within.advance caches
    refine ⟨q, more, fun _ => few, { brings with stopped := fun error failed => ?_ }⟩
    rcases outcome : (s.advance caches).1 with error' | _
    · exact brings.stopped error' outcome
    · rw [Session.Call.run, outcome] at failed
      cases failed
  · obtain ⟨q, more, brings⟩ := within.finish caches
    exact ⟨q, more, fun other => Session.Call.noConfusion other, brings⟩

theorem Stopped.run (stopped : Stopped s) (call : Session.Call) (caches : Caches) :
    (call ≠ .rewind → Stopped (call.run s caches).2.1) ∧
      (call.run s caches).2.2.header = caches.header ∧
      (call.run s caches).2.2.data.size ≤ caches.data.size := by
  cases call with
  | advance =>
    rw [Session.Call.run, stopped.advance]
    exact ⟨fun _ => stopped, rfl, Nat.le_refl _⟩
  | finish =>
    rw [Session.Call.run, (stopped.finish caches).2]
    exact ⟨fun _ => (stopped.finish caches).1, rfl, Nat.le_refl _⟩
  | close =>
    exact ⟨fun _ => ⟨SessionStatus.noConfusion, fun r is => by cases is⟩, rfl, Nat.le_refl _⟩
  | rewind => exact ⟨absurd rfl, rfl, Nat.le_refl _⟩
  | pop =>
    refine ⟨fun _ => stopped, rfl, ?_⟩
    show (caches.data.rows.extract 1 caches.data.rows.size).size ≤ caches.data.rows.size
    rw [Array.size_extract]
    omega
  | clear => exact ⟨fun _ => stopped, rfl, Nat.zero_le _⟩

def RowCache.added (before after : RowCache) : List CachedRow :=
  after.rows.toList.drop before.rows.size

/-- A session with its caches, and what has become of it so far. -/
structure Course where
  session : Session
  caches : Caches := {}
  /-- All that was ever kept for a header. -/
  headers : List CachedRow := []
  /-- The rows of data that were kept since the session last began. -/
  data : List CachedRow := []
  /-- A call has failed, and the session has not begun again. -/
  failed : Bool := false

namespace Course

def after (c : Course) (call : Session.Call) : Course :=
  let (outcome, session, caches) := call.run c.session c.caches
  { session, caches
    headers := c.headers ++ c.caches.header.added caches.header
    data := if call = .rewind then [] else c.data ++ c.caches.data.added caches.data
    failed := match outcome with
      | .error _ => true
      | .ok () => c.failed && call ≠ .rewind }

def run (c : Course) (calls : List Session.Call) : Course := calls.foldl after c

/-- A course of calls up to a point in a parse that has handed over `rows`. -/
structure Follows (content : Bytes) (options : Csv.Options) (p : Parser) (rows : List Row)
    (c : Course) : Prop where
  within : Within content options p rows c.session
  data : c.data = rows.tail.map dataRow
  kept : c.caches.header.rows.toList = c.headers
  single : c.headers = [] ∨ ∃ row, c.headers = [.owned row 0]
  sought : c.session.sink = .header → c.headers = []
  stopped : c.failed = true → Stopped c.session

variable {c : Course}

theorem added_none {before after : RowCache} (fewer : after.size ≤ before.size) :
    before.added after = [] :=
  List.drop_of_length_le (Array.length_toList.trans_le fewer)

theorem added_append {before after : RowCache} {new : List CachedRow}
    (grown : after.rows.toList = before.rows.toList ++ new) : before.added after = new := by
  rw [RowCache.added, grown, List.drop_left' Array.length_toList]

theorem Follows.brought (follows : c.Follows content options p rows) {call : Session.Call}
    (bringing : call = .advance ∨ call = .finish) :
    ∃ q more, (call = .advance → (rows ++ more).tail.length ≤ rows.tail.length + 1) ∧
      (c.after call).Follows content options q (rows ++ more) ∧
      c.caches.data.rows.toList <+: (c.after call).caches.data.rows.toList := by
  have again : call ≠ .rewind := by
    rcases bringing with rfl | rfl <;> exact Session.Call.noConfusion
  obtain ⟨q, more, few, brings⟩ := follows.within.brings bringing c.caches
  have stopping : Stopped c.session → Stopped (call.run c.session c.caches).2.1 :=
    fun stopped => (stopped.run call c.caches).1 again
  refine ⟨q, more, few, ?_⟩
  unfold after
  rcases ran : call.run c.session c.caches with ⟨outcome, s', caches'⟩
  rw [ran] at brings stopping
  dsimp only at brings stopping ⊢
  obtain ⟨new, tail, data⟩ := brings.adds.data
  obtain ⟨newest, header, some, none⟩ := brings.adds.header
  have data' : c.caches.data.added caches'.data = new.map dataRow := added_append data
  have header' : c.caches.header.added caches'.header = newest := added_append header
  rw [if_neg again, data', header']
  refine ⟨⟨brings.within, ?_, ?_, ?_, fun is => ?_, fun failed => ?_⟩, ⟨_, data.symm⟩⟩
  · show c.data ++ _ = _
    rw [follows.data, tail, List.map_append]
  · show caches'.header.rows.toList = c.headers ++ newest
    rw [← follows.kept]
    exact header
  · show c.headers ++ newest = [] ∨ _
    rcases some with rfl | ⟨sink, row, rfl⟩
    · rw [List.append_nil]
      exact follows.single
    · exact Or.inr ⟨row, by rw [follows.sought sink]; rfl⟩
  · show c.headers ++ newest = []
    obtain ⟨sink, rfl⟩ := none is
    rw [follows.sought sink]
    rfl
  · cases outcome with
    | error error => exact brings.stopped error rfl
    | ok _ => exact stopping (follows.stopped (Bool.and_eq_true_iff.mp failed).1)

theorem Follows.dropped (follows : c.Follows content options p rows) {call : Session.Call}
    (again : call ≠ .rewind) {s' : Session} {data : RowCache}
    (ran : call.run c.session c.caches = (.ok (), s', { c.caches with data }))
    (fewer : data.size ≤ c.caches.data.size) (within : Within content options p rows s')
    (sink : s'.sink = c.session.sink) (stopped : Stopped c.session → Stopped s') :
    (c.after call).Follows content options p rows := by
  unfold after
  rw [ran]
  dsimp only
  rw [added_none (Nat.le_refl _), added_none fewer, if_neg again, List.append_nil, List.append_nil]
  exact { follows with
    within
    sought := fun is => follows.sought (sink ▸ is)
    stopped := fun failed => stopped (follows.stopped (Bool.and_eq_true_iff.mp failed).1) }

theorem Follows.rewound (follows : c.Follows content options p rows) :
    ∃ q, (c.after .rewind).Follows content options q [] := by
  obtain ⟨⟨q, within⟩, stopped, sought⟩ := follows.within.rewind (!c.caches.header.isEmpty)
  refine ⟨q, ?_⟩
  unfold after Session.Call.run
  dsimp only
  rw [added_none (Nat.le_refl _), List.append_nil]
  refine { follows with within, data := rfl, sought := fun is => ?_, stopped := fun failed => ?_ }
  · rcases sought is with before | missing
    · exact follows.sought before
    · have empty : c.caches.header.rows = #[] := by
        simpa [RowCache.isEmpty] using missing
      rw [← follows.kept, empty]
  · rcases outcome : (c.session.rewind (!c.caches.header.isEmpty)).1 with error | _
    · exact stopped error outcome
    · rw [outcome] at failed
      exact absurd rfl (of_decide_eq_true (Bool.and_eq_true_iff.mp failed).2)

theorem Follows.after (follows : c.Follows content options p rows) (call : Session.Call) :
    ∃ q rows', (c.after call).Follows content options q rows' := by
  cases call with
  | advance =>
    obtain ⟨q, more, -, later, -⟩ := follows.brought (Or.inl rfl)
    exact ⟨q, _, later⟩
  | finish =>
    obtain ⟨q, more, -, later, -⟩ := follows.brought (Or.inr rfl)
    exact ⟨q, _, later⟩
  | rewind =>
    obtain ⟨q, rewound⟩ := follows.rewound
    exact ⟨q, [], rewound⟩
  | close =>
    have gone : ∀ r, (none : Option Parser) = some r → r.IsOver := fun r is => by cases is
    have within : Within content options p rows c.session.close := { follows.within with
      parser := fun r is => by cases is
      ready := fun other => by cases other
      numbers := fun some => absurd rfl some
      failed := fun _ other => by cases other }
    exact ⟨p, rows, follows.dropped Session.Call.noConfusion rfl (Nat.le_refl _) within rfl
      fun _ => ⟨SessionStatus.noConfusion, gone⟩⟩
  | pop =>
    refine ⟨p, rows, follows.dropped Session.Call.noConfusion rfl ?_ follows.within rfl id⟩
    show (c.caches.data.rows.extract 1 c.caches.data.rows.size).size ≤ c.caches.data.rows.size
    rw [Array.size_extract]
    omega
  | clear =>
    exact ⟨p, rows, follows.dropped Session.Call.noConfusion rfl (Nat.zero_le _) follows.within rfl id⟩

theorem Follows.run (follows : c.Follows content options p rows) (calls : List Session.Call) :
    ∃ q rows', (c.run calls).Follows content options q rows' := by
  induction calls generalizing c p rows with
  | nil => exact ⟨p, rows, follows⟩
  | cons call rest ih =>
    obtain ⟨q, rows', first⟩ := follows.after call
    exact ih first

theorem follows_new {reads : List ReadEvent} {seeks : List (Option String)} {s : Session}
    (made : Session.new (.ofBytes content reads seeks) options = .ok s) :
    ({ session := s } : Course).Follows content options
      (.initial (.ofBytes content reads seeks) options) [] := by
  obtain ⟨-, rfl⟩ := session_new_inv made
  exact {
    within := {
      parse := .start reads seeks
      parser := fun r is => (Option.some.inj is).symm
      options_eq := rfl
      ready := fun _ => ⟨_, rfl⟩
      numbers := fun _ => ⟨⟨fun _ => Sink.noConfusion, fun _ => rfl⟩, rfl⟩
      failed := fun _ other => by cases other }
    data := rfl
    kept := rfl
    single := Or.inl rfl
    sought := fun _ => rfl
    stopped := fun other => by cases other }

end Course

theorem ids_dataRow (numbered : rows.map Row.number = List.range' 1 rows.length) :
    (rows.tail.map dataRow).map CachedRow.id = (List.range' 1 rows.tail.length).map Int.ofNat := by
  cases rows with
  | nil => rfl
  | cons row rest =>
    have later : rest.map Row.number = (List.range' 1 rest.length).map (1 + ·) := by
      rw [List.map_cons, List.length_cons, List.range'_succ] at numbered
      rw [List.map_add_range']
      exact (List.cons.inj numbered).2
    have ids : ∀ rows : List Row, (rows.map dataRow).map CachedRow.id =
        (rows.map Row.number).map fun number : Nat => (number : Int) - 1 := fun rows => by
      rw [List.map_map, List.map_map]
      rfl
    rw [List.tail_cons, ids, later, List.map_map]
    refine List.map_congr_left fun number _ => ?_
    show ((1 + number : Nat) : Int) - 1 = number
    omega

/-- Whatever is called on a session, in whatever order and over whatever source: one row at most is
ever kept for the header, owned and with the number 0. The rows of data that were kept since the
session last began are those that its parse has handed over, less the first, numbered 1, 2, 3 and so
on; what the parse hands over are the first records of the bytes that it has read. Moving on adds one
row of data at most, and after a failure no call adds anything, until the session begins again. -/
theorem calls_number_rows {content : Bytes} {reads : List ReadEvent} {seeks : List (Option String)}
    {options : Csv.Options} {s : Session}
    (made : Session.new (.ofBytes content reads seeks) options = .ok s) (calls : List Session.Call) :
    let c := ({ session := s } : Course).run calls
    c.caches.header.rows.toList = c.headers ∧
      (c.headers = [] ∨ ∃ row, c.headers = [.owned row 0]) ∧
      (∃ (reads' : List ReadEvent) (seeks' : List (Option String)) (parse : List (Parser.Call Unit)),
        let begun := (Parser.initial (.ofBytes content reads' seeks') options, ())
        let rows := Parser.rowsSeen parse begun
        let now := (Parser.runCalls parse begun).1
        (∀ p, c.session.parser = some p → p = now) ∧
          rows.map Row.number = List.range' 1 rows.length ∧
          (SingleMark content → rows.map Row.cells <+:
            reference options.delimiter (content.take now.source.offset)) ∧
          c.data = rows.tail.map dataRow ∧
          c.data.map CachedRow.id = (List.range' 1 c.data.length).map Int.ofNat) ∧
      (c.after .advance).data.length ≤ c.data.length + 1 ∧
      ∀ call, (call = .advance ∨ call = .finish →
          c.caches.data.rows.toList <+: (c.after call).caches.data.rows.toList) ∧
        (c.failed = true → c.caches.header.added (c.after call).caches.header = [] ∧
          c.caches.data.added (c.after call).caches.data = []) := by
  intro c
  obtain ⟨p, rows, follows⟩ := (Course.follows_new made).run calls
  have numbered := follows.within.parse.numbers
  obtain ⟨reads', seeks', parse, all, rfl, rfl⟩ := follows.within.parse.calls
  refine ⟨follows.kept, follows.single, ⟨reads', seeks', parse, follows.within.parser, numbered,
    fun single => ?_, follows.data, ?_⟩, ?_, fun call => ⟨fun bringing => ?_, fun failed => ?_⟩⟩
  · exact Parser.rowsSeen_front content reads' seeks' options single parse
      (fun call member row t => by rw [all call member]; rfl) ()
  · rw [follows.data, ids_dataRow numbered, List.length_map]
  · obtain ⟨q, more, few, later, -⟩ := follows.brought (Or.inl rfl)
    rw [later.data, follows.data, List.length_map, List.length_map]
    exact few rfl
  · obtain ⟨q, more, -, -, grows⟩ := follows.brought bringing
    exact grows
  · obtain ⟨-, header, fewer⟩ := (follows.stopped failed).run call c.caches
    refine ⟨?_, Course.added_none fewer⟩
    show c.caches.header.added (call.run c.session c.caches).2.2.header = []
    rw [header]
    exact Course.added_none (Nat.le_refl _)

/-- The first read fails, so that the header is found only when the session begins again; finishing
early then brings all rows of data at once. The second time the header is passed over, and the source
cannot be set back a third time. -/
theorem calls_number_rows_past_failures :
    let content : Bytes := [97, 10, 120, 10, 34, 121, 34, 10, 122]
    let calls : List Session.Call :=
      [.advance, .finish, .rewind, .advance, .finish, .pop, .rewind, .clear, .advance, .finish,
        .rewind, .advance, .finish]
    ∃ s c early, Session.new (.ofBytes content [.failed "gone"] [none, none, some "lost"]) {} = .ok s ∧
      c = ({ session := s } : Course).run calls ∧
      early = ({ session := s } : Course).run (calls.take 5) ∧
      (c.failed = true ∧ c.headers.length = 1 ∧ early.data.length = 3) ∧
        (∃ row, c.headers = [.owned row 0]) ∧ early.data.map CachedRow.id = [1, 2, 3] ∧
        ∀ call, c.caches.data.added (c.after call).caches.data = [] := by
  intro content calls
  have made : Session.new (.ofBytes content [.failed "gone"] [none, none, some "lost"]) {} =
    .ok { parser := some (.initial (.ofBytes content [.failed "gone"] [none, none, some "lost"]) {})
          options := {} } := rfl
  obtain ⟨-, single, -, -, onward⟩ := calls_number_rows made calls
  obtain ⟨-, -, ⟨-, -, -, -, -, -, -, ids⟩, -⟩ := calls_number_rows made (calls.take 5)
  refine ⟨_, _, _, made, rfl, rfl, ?_⟩
  refine (and_iff_left_iff_imp.mpr ?later).mpr ?ran
  case ran => decide +kernel
  case later =>
    rintro ⟨failed, one, three⟩
    refine ⟨single.resolve_left fun none => ?_, ?_, fun call => ((onward call).2 failed).2⟩
    · rw [none] at one
      cases one
    · rw [ids, three]
      rfl

end Tabular.Table
