import Tabular.Proofs.Table.Pulling
import Tabular.Table.Connect

/-!
What stands behind a table. Whatever has been done on it since it was connected, its session has a
parser over the bytes it was connected to, which can be set back, and its header is kept.
-/
namespace Tabular

/-- The bytes of a source that does not fail. -/
structure Source.Serves (s : Source) (content : Bytes) : Prop where
  content : s.content = content
  steady : s.Steady
  seeks : s.seeks = []

namespace Table

open Csv

/-- A parser over a source of the given bytes, wherever it stands in them. -/
structure Reads (p : Parser) (content : Bytes) : Prop where
  layout : p.Layout
  serves : p.source.Serves content

/-- A session over the given bytes that keeps at least `headers` header rows. -/
structure Backed (options : Options) (content : Bytes) (headers : Nat) (s : Session)
    (caches : Caches) : Prop where
  parser : ∃ p, s.parser = some p ∧ Reads p content
  options : s.options = options
  header : headers ≤ caches.header.size

/-! ## Steps -/

variable {options : Options} {content : Bytes} {headers : Nat} {s : Session} {caches : Caches}

theorem header_le_received (i : Intake) (row : Row) :
    i.caches.header.size ≤ (i.received row).caches.header.size := by
  unfold Intake.received Intake.receive
  cases i.sink with
  | header =>
    show _ ≤ (i.caches.header.rows.push _).size
    rw [Array.size_push]
    exact Nat.le_succ _
  | skipHeader => exact Nat.le_refl _
  | data => exact Nat.le_refl _

theorem invariant_backed (content : Bytes) (headers : Nat) :
    Parser.Invariant Intake.receive fun p i =>
      p.source.Serves content ∧ headers ≤ i.caches.header.size where
  begins := fun _ _ _ holds => holds
  moves := by
    intro p q i _ move holds
    obtain ⟨serves, header⟩ := holds
    have continues := move.continues
    exact ⟨{
      content := continues.content.trans serves.content
      steady := fun event member => serves.steady event (continues.reads.subset member)
      seeks := continues.seeks.trans serves.seeks }, header⟩
  delivers := fun _ _ _ _ holds =>
    ⟨holds.1, Nat.le_trans holds.2 (header_le_received _ _)⟩
  ends := fun _ _ _ _ holds => holds

structure Holding (Holds : Parser → Intake → Prop) (options : Options) (s : Session)
    (caches : Caches) : Prop where
  parser : ∃ p, s.parser = some p ∧ p.Layout ∧ Holds p (s.intake caches)
  options_eq : s.options = options

variable {Holds : Parser → Intake → Prop}

theorem Holding.after (holding : Holding Holds options s caches) {p : Parser} {i : Intake}
    (kept : p.Layout ∧ Holds p i) (status : SessionStatus) :
    Holding Holds options (s.after p i status) i.caches where
  parser := ⟨p, rfl, kept⟩
  options_eq := holding.options_eq

theorem Holding.stepOnce (invariant : Parser.Invariant Intake.receive Holds)
    (holding : Holding Holds options s caches) :
    Holding Holds options (s.stepOnce caches).2.1 (s.stepOnce caches).2.2 := by
  obtain ⟨p, parser, layout, holds⟩ := holding.parser
  have kept := invariant.parseMore p (s.intake caches) layout holds
  unfold Session.stepOnce
  rw [parser]
  dsimp only
  rcases stepped : p.parseMore Intake.receive (s.intake caches) with ⟨outcome, q, i⟩
  rw [stepped] at kept
  rw [show p.parseMore Intake.receive { sink := s.sink, nextId := s.nextId, caches } = _ from stepped]
  rcases outcome with error | _ | _ <;> exact holding.after kept _

theorem Holding.advance (invariant : Parser.Invariant Intake.receive Holds)
    (holding : Holding Holds options s caches) :
    Holding Holds options (s.advance caches).2.1 (s.advance caches).2.2 := by
  unfold Session.advance
  cases s.status with
  | failed description => exact holding
  | exhausted => exact holding
  | ready =>
    have first := holding.stepOnce invariant
    cases s.sink with
    | header => exact first
    | data => exact first
    | skipHeader =>
      dsimp only
      rcases stepped : s.stepOnce caches with ⟨outcome, s', caches'⟩
      rw [stepped] at first
      rcases outcome with error | _ | _
      · exact first
      · exact first.stepOnce invariant
      · exact first

theorem Holding.finish (invariant : Parser.Invariant Intake.receive Holds)
    (holding : Holding Holds options s caches) :
    Holding Holds options (s.finish caches).2.1 (s.finish caches).2.2 := by
  obtain ⟨p, parser, layout, holds⟩ := holding.parser
  have kept := invariant.finish p (s.intake caches) layout holds
  unfold Session.finish
  split
  · exact holding
  · rw [parser]
    dsimp only
    rcases finished : p.finish Intake.receive (s.intake caches) with ⟨outcome, q, i⟩
    rw [finished] at kept
    rw [show p.finish Intake.receive { sink := s.sink, nextId := s.nextId, caches } = _
      from finished]
    rcases outcome with error | _ <;> exact { holding.after kept s.status with }

theorem Holding.pull (invariant : Parser.Invariant Intake.receive Holds)
    (holding : Holding Holds options s caches) :
    Holding Holds options (s.pull caches).2.1 (s.pull caches).2.2 := by
  have advanced := holding.advance invariant
  unfold Session.pull
  rcases result : s.advance caches with ⟨outcome, s', caches'⟩
  rw [result] at advanced
  rcases outcome with error | _ | _
  · exact advanced
  · exact advanced
  · exact advanced.finish invariant

theorem Backed.pull (backed : Backed options content headers s caches) :
    Backed options content headers (s.pull caches).2.1 (s.pull caches).2.2 := by
  obtain ⟨p, parser, reads⟩ := backed.parser
  have holding : Holding (fun p i => p.source.Serves content ∧ headers ≤ i.caches.header.size)
      options s caches :=
    ⟨⟨p, parser, reads.layout, reads.serves, backed.header⟩, backed.options⟩
  obtain ⟨⟨q, parser', layout, serves, header⟩, options_eq⟩ :=
    holding.pull (invariant_backed content headers)
  exact ⟨⟨q, parser', layout, serves⟩, options_eq, header⟩

/-! ## The start of the source -/

theorem rewind_eq {p : Parser} (parser : s.parser = some p) (options_eq : s.options = options)
    (allowed : options.Allowed) {source : Source} (back : p.source.rewind = (.ok (), source))
    (cached : Bool) :
    s.rewind cached = (.ok (), { s with
      parser := some (Parser.initial source options)
      sink := if cached then .skipHeader else .header
      status := .ready, finished := false, nextId := 1 }) := by
  have restarted : s.restart = .ok (Parser.initial source options) := by
    unfold Session.restart
    rw [parser]
    dsimp only
    rw [back]
    dsimp only
    rw [options_eq, Parser.new_eq_initial _ allowed]
  unfold Session.rewind
  rw [restarted]

theorem Backed.rewind (backed : Backed options content headers s caches)
    (allowed : options.Allowed) (cached : Bool) :
    ∃ source : Source, source.Serves content ∧ source.rest = content ∧
      s.rewind cached = (.ok (), { s with
        parser := some (Parser.initial source options)
        sink := if cached then .skipHeader else .header
        status := .ready, finished := false, nextId := 1 }) := by
  obtain ⟨p, parser, reads⟩ := backed.parser
  have serves := reads.serves
  have back : p.source.rewind = (.ok (),
      { p.source with offset := 0, rest := p.source.content, seeks := [] }) := by
    rw [Source.rewind, serves.seeks]
    rfl
  exact ⟨{ p.source with offset := 0, rest := p.source.content, seeks := [] },
    ⟨serves.content, serves.steady, rfl⟩, serves.content,
    rewind_eq parser backed.options allowed back cached⟩

theorem reads_initial {source : Source} (serves : source.Serves content) (options : Options) :
    Reads (Parser.initial source options) content :=
  ⟨Parser.layout_initial source options, serves⟩

theorem facing_initial {source : Source}
    (parser : s.parser = some (Parser.initial source options)) (status : s.status = .ready)
    (unfinished : s.finished = false) (serves : source.Serves content)
    (front : source.rest = content) (allowed : options.Allowed) (single : SingleMark content) :
    Facing s (Parser.initial source options) (reference options.delimiter content) := by
  have ahead := Parser.initial_ahead source options
  have awaiting := Parser.initial_awaiting source serves.steady allowed (by rwa [front])
  rw [front] at ahead awaiting
  -- Each record takes up a byte at least, so there is work enough for all of them.
  have short : (reference options.delimiter content).length ≤ (Parser.initial source options).work := by
    have bytes := toCome_le_work (Parser.initial source options)
    have few := Grammar.records_length_le options.delimiter (Grammar.withoutMark content)
    have cut : (Grammar.withoutMark content).length ≤ content.length := by
      unfold Grammar.withoutMark
      split
      · rw [List.length_drop]
        exact Nat.sub_le _ _
      · exact Nat.le_refl _
    have whole : (Parser.initial source options).toCome = content := front
    calc (reference options.delimiter content).length
        ≤ (Grammar.withoutMark content).length := few
      _ ≤ content.length := cut
      _ ≤ (Parser.initial source options).work := by rwa [whole] at bytes
  exact ⟨parser, rfl, ⟨_, awaiting, ahead⟩, short, status, unfinished⟩

/-! ## Every state of a table -/

/-- What can become of a table until it is disconnected, whatever its calls answer. -/
inductive Reachable (t : State) : State → Prop where
  | start : Reachable t t
  | openCursor {s : State} (before : Reachable t s) : Reachable t s.openCursor.2
  | closeCursor {s : State} (before : Reachable t s) : Reachable t s.closeCursor
  | filter {s : State} (before : Reachable t s) : Reachable t s.filter.2
  | next {s : State} (before : Reachable t s) : Reachable t s.next.2

def Params.limits (p : Params) : Options := { maxColumns := p.maxColumns }

namespace State

/-- A table over the given bytes that keeps a header. -/
structure Kept (t : State) (params : Params) (content : Bytes) : Prop where
  same : t.params = params
  backed : Backed params.limits content 1 t.session t.caches

variable {t : State} {params : Params}

theorem Kept.pull (kept : t.Kept params content) : t.pull.2.Kept params content where
  same := kept.same
  backed := kept.backed.pull

theorem Kept.isEmpty_header (kept : t.Kept params content) : t.caches.header.isEmpty = false :=
  Array.isEmpty_eq_false_iff.mpr (Array.ne_empty_of_size_pos kept.backed.header)

theorem Kept.filter (kept : t.Kept params content) (allowed : params.limits.Allowed) :
    ∃ (source : Source) (again : State), source.Serves content ∧ source.rest = content ∧
      t.filter = again.pull ∧ again.Kept params content ∧
      again.session = { t.session with
        parser := some (Parser.initial source params.limits)
        sink := .skipHeader, status := .ready, finished := false, nextId := 1 } ∧
      again.caches = { t.caches with data := {} } := by
  obtain ⟨source, serves, front, rewound⟩ := kept.backed.rewind allowed true
  have filtered : t.filter = State.pull { t with
      caches.data := {}
      session := { t.session with
        parser := some (Parser.initial source params.limits)
        sink := .skipHeader, status := .ready, finished := false, nextId := 1 } } := by
    unfold State.filter
    dsimp only
    rw [kept.isEmpty_header, Bool.not_false, rewound]
    rfl
  refine ⟨source, _, serves, front, filtered, ⟨kept.same, ?_⟩, rfl, rfl⟩
  exact {
    parser := ⟨_, rfl, reads_initial serves _⟩
    options := kept.backed.options
    header := kept.backed.header }

theorem Kept.next (kept : t.Kept params content) : t.next.2.Kept params content := by
  have popped : State.Kept { t with caches.data := t.caches.data.pop } params content :=
    ⟨kept.same, { kept.backed with }⟩
  unfold State.next
  dsimp only
  split
  · exact popped.pull
  · exact popped

theorem Kept.openCursor (kept : t.Kept params content) :
    t.openCursor.2.Kept params content := by
  unfold State.openCursor
  split
  · exact kept
  · exact { kept with }

theorem Kept.closeCursor (kept : t.Kept params content) : t.closeCursor.Kept params content :=
  { kept with }

end State

theorem Reachable.kept {t s : State} {params : Params} (reachable : Reachable t s)
    (kept : t.Kept params content) (allowed : params.limits.Allowed) : s.Kept params content := by
  induction reachable with
  | start => exact kept
  | openCursor before ih => exact ih.openCursor
  | closeCursor before ih => exact ih.closeCursor
  | next before ih => exact ih.next
  | filter before ih =>
    obtain ⟨source, again, -, -, filtered, onward, -, -⟩ := ih.filter allowed
    rw [filtered]
    exact onward.pull

/-! ## A table that was connected -/

theorem session_new_inv {source : Source} {options : Options} {s : Session}
    (made : Session.new source options = .ok s) :
    options.Allowed ∧ s = { parser := some (Parser.initial source options), options } := by
  unfold Session.new at made
  rcases begun : Parser.new source options with error | p
  · rw [begun] at made
    cases made
  · rw [begun] at made
    obtain ⟨allowed, rfl⟩ := Parser.new_inv begun
    cases made
    exact ⟨allowed, rfl⟩

theorem checkMark_of_failed {p q : Parser} {error : Error} (unchecked : p.markChecked = false)
    (going : p.atEnd = false) (short : p.window.filled < byteOrderMark.length)
    (filled : p.fill = (.error error, q)) : p.checkMark = (.error error, q) := by
  have marked : p.fillMark = (.error error, q) := by
    rw [Parser.fillMark, dif_neg (by rw [going]; exact Bool.false_ne_true), if_pos short]
    split
    · rename_i again r same
      rw [filled] at same
      cases same
      rfl
    · rename_i r same
      rw [filled] at same
      cases same
  rw [Parser.checkMark, unchecked, if_neg Bool.false_ne_true, marked]

theorem pull_unreadable (detail : String) (options : Options) :
    (Session.pull { parser := some (Parser.initial (.unreadable detail) options), options }
      {}).1 = .error (.io detail) := by
  obtain ⟨q, filled⟩ : ∃ q, (Parser.initial (.unreadable detail) options).beginGeneration.fill =
      (.error (.io detail), q) := ⟨_, rfl⟩
  have marked := checkMark_of_failed rfl rfl (Nat.zero_lt_succ _) filled
  have stepped : (Parser.initial (.unreadable detail) options).beginGeneration.step
      Intake.receive { sink := .header, nextId := 1, caches := {} } =
        (.error (.io detail), q, { sink := .header, nextId := 1, caches := {} }) := by
    rw [Parser.step, marked]
  have failed := Parser.parseMore_ready Intake.receive rfl stepped
  unfold Session.pull Session.advance Session.stepOnce
  dsimp only
  rw [failed]

theorem readHeader_inv {source : Source} {maxColumns : Nat} {header : List Cell}
    (read : readHeader source maxColumns = .ok (header, s, caches)) :
    ∃ session, Session.new source { maxColumns } = .ok session ∧
      session.pull {} = (.ok (), s, caches) ∧
        caches.header.head?.bind CachedRow.ownedCells = some header.toArray := by
  unfold readHeader at read
  rcases made : Session.new source { maxColumns } with error | session
  · rw [made] at read
    cases read
  · rw [made] at read
    simp only [bind, Except.bind] at read
    rcases pulled : session.pull {} with ⟨error | _, s', caches'⟩
    · rw [pulled] at read
      cases read
    · rw [pulled] at read
      dsimp only at read
      split at read
      · cases read
      · rename_i cells first
        cases read
        exact ⟨session, rfl, pulled, first⟩

theorem readable_of_header {source : Source} {maxColumns : Nat} {header : List Cell}
    (read : readHeader source maxColumns = .ok (header, s, caches)) (detail : String) :
    source ≠ .unreadable detail := by
  rintro rfl
  obtain ⟨session, made, pulled, -⟩ := readHeader_inv read
  obtain ⟨-, rfl⟩ := session_new_inv made
  have failed := pull_unreadable detail { maxColumns }
  rw [pulled] at failed
  cases failed

theorem backed_of_header {source : Source} {maxColumns : Nat} {header : List Cell}
    (read : readHeader source maxColumns = .ok (header, s, caches))
    (serves : source.Serves content) :
    ({ maxColumns } : Options).Allowed ∧ Backed { maxColumns } content 1 s caches := by
  obtain ⟨session, made, pulled, first⟩ := readHeader_inv read
  obtain ⟨allowed, rfl⟩ := session_new_inv made
  have backed : Backed { maxColumns } content 0
      { parser := some (Parser.initial source { maxColumns }), options := { maxColumns } } {} := {
    parser := ⟨_, rfl, reads_initial serves _⟩
    options := rfl
    header := Nat.zero_le _ }
  have left := backed.pull
  rw [pulled] at left
  -- A header row is kept, for otherwise none would have been read.
  refine ⟨allowed, { left with header := ?_ }⟩
  by_contra none
  have empty : caches.header.rows = #[] := Array.eq_empty_of_size_eq_zero (by
    show caches.header.size = 0
    omega)
  rw [RowCache.head?, empty] at first
  cases first

theorem serves_ofBytes (content : Bytes) : (Source.ofBytes content).Serves content where
  content := rfl
  steady := fun _ none => absurd none List.not_mem_nil
  seeks := rfl

theorem openSource_ofBytes {disk : Disk} {spec : SourceSpec} {opened : Disk.Opened}
    (opens : openSource disk spec = .ok opened)
    (readable : ∀ detail, opened.source ≠ .unreadable detail) :
    opened.source = .ofBytes opened.source.content := by
  cases spec with
  | inline text =>
    cases opens
    rfl
  | file path =>
    unfold openSource Disk.open? at opens
    dsimp only at opens
    rcases found : disk.find? (Utf8.encode path) with _ | entry
    · rw [found] at opens
      cases opens
    · rw [found] at opens
      cases entry with
      | file number =>
        cases opens
        rfl
      | directory =>
        cases opens
        exact absurd rfl (readable _)

theorem connectTo_inv {opened : Disk.Opened} {name : String} {params : Params}
    {declaration : Host.Declaration} {blanks : BlankCounter} {t : State}
    (connected : (connectTo opened name params declaration blanks).result = .ok t) :
    t.name = name ∧ t.params = params ∧ t.cursorOpen = false ∧
      ∃ header, readHeader opened.source params.maxColumns = .ok (header, t.session, t.caches) ∧
        ∃ blanks', declareColumns header declaration blanks = (.ok t.columns,
          (connectTo opened name params declaration blanks).declaration, blanks') := by
  unfold connectTo at connected ⊢
  rcases read : readHeader opened.source params.maxColumns with error | ⟨header, session, caches⟩
  · rw [read] at connected
    cases connected
  rw [read] at connected
  dsimp only at connected ⊢
  rcases declared : declareColumns header declaration blanks with ⟨halt | columns, told, counted⟩
  · rw [declared] at connected
    cases connected
  rw [declared] at connected
  cases connected
  exact ⟨rfl, rfl, rfl, header, rfl, counted, declared⟩

theorem connect_inv {disk : Disk} {arguments : List String} {declaration : Host.Declaration}
    {blanks : BlankCounter} {t : State}
    (connected : (connect disk arguments declaration blanks).result = .ok t) :
    ∃ opened, openSource disk t.params.source = .ok opened ∧
      connect disk arguments declaration blanks =
        connectTo opened (arguments[2]?.getD "x") t.params declaration blanks := by
  unfold connect at connected ⊢
  rcases parsed : Params.parse (arguments.drop 3) with halt | params
  · rw [parsed] at connected
    cases connected
  rw [parsed] at connected
  dsimp only at connected ⊢
  rcases opens : openSource disk params.source with error | opened
  · rw [opens] at connected
    cases connected
  rw [opens] at connected
  dsimp only at connected ⊢
  obtain ⟨-, rfl, -⟩ := connectTo_inv connected
  exact ⟨opened, opens, rfl⟩

theorem connect_header {disk : Disk} {arguments : List String} {declaration : Host.Declaration}
    {blanks : BlankCounter} {t : State}
    (connected : (connect disk arguments declaration blanks).result = .ok t) :
    ∃ opened header, openSource disk t.params.source = .ok opened ∧
      opened.source = .ofBytes opened.source.content ∧
        readHeader opened.source t.params.maxColumns = .ok (header, t.session, t.caches) := by
  obtain ⟨opened, opens, same⟩ := connect_inv connected
  rw [same] at connected
  obtain ⟨-, -, -, header, read, -⟩ := connectTo_inv connected
  exact ⟨opened, header, opens, openSource_ofBytes opens (readable_of_header read), read⟩

/-- A table that was connected is over the bytes it was connected to, all of them readable, and it
keeps their header. -/
theorem connect_kept {disk : Disk} {arguments : List String} {declaration : Host.Declaration}
    {blanks : BlankCounter} {t : State}
    (connected : (connect disk arguments declaration blanks).result = .ok t) :
    t.params.limits.Allowed ∧ ∃ opened, openSource disk t.params.source = .ok opened ∧
      t.Kept t.params opened.source.content := by
  obtain ⟨opened, header, opens, plain, read⟩ := connect_header connected
  have serves := serves_ofBytes opened.source.content
  rw [← plain] at serves
  obtain ⟨allowed, backed⟩ := backed_of_header read serves
  exact ⟨allowed, opened, opens, rfl, backed⟩

theorem connectTo_of_header {opened : Disk.Opened} {name : String} {params : Params}
    {declaration : Host.Declaration} {blanks : BlankCounter} {header : List Cell}
    (read : (readHeader opened.source params.maxColumns).map Prod.fst = .ok header)
    (declared : ∃ columns, (declareColumns header declaration blanks).1 = .ok columns) :
    ∃ t, (connectTo opened name params declaration blanks).result = .ok t ∧ t.params = params := by
  obtain ⟨columns, declared⟩ := declared
  rcases found : readHeader opened.source params.maxColumns with error | ⟨header', session, caches⟩
  · rw [found] at read
    cases read
  · rw [found] at read
    cases read
    rcases result : declareColumns header' declaration blanks with ⟨outcome, told, counted⟩
    rw [result] at declared
    dsimp only at declared
    subst declared
    unfold connectTo
    rw [found]
    dsimp only
    rw [result]
    exact ⟨_, rfl, rfl⟩

/-- A table is connected if its parameters, its source and its header can be read and its columns
declared. -/
theorem connect_of_header {disk : Disk} {arguments : List String} {declaration : Host.Declaration}
    {blanks : BlankCounter} {params : Params} {opened : Disk.Opened} {header : List Cell}
    (parsed : Params.parse (arguments.drop 3) = .ok params)
    (opens : openSource disk params.source = .ok opened)
    (read : (readHeader opened.source params.maxColumns).map Prod.fst = .ok header)
    (declared : ∃ columns, (declareColumns header declaration blanks).1 = .ok columns) :
    ∃ t, (connect disk arguments declaration blanks).result = .ok t ∧ t.params = params := by
  unfold connect
  rw [parsed]
  dsimp only
  rw [opens]
  exact connectTo_of_header read declared

end Table

end Tabular
