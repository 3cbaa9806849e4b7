import Tabular.Proofs.Table.Repeats

/-!
A table with a bad row. A scan shows the rows in front of it and then fails, in the call that would
come to it, and what is said of the failure stays until the next scan. Since every scan goes back to
the start of the same bytes, it comes to the same rows and fails in the same way.
-/
namespace Tabular.Table

open Csv

/-! ## A record over a limit -/

variable {s : Session} {caches : Caches} {p : Parser} {r : Record} {more : List Record}

theorem Facing.stepOnce (facing : Facing s p (r :: more)) (fits : p.options.Fits r)
    (some : more ≠ []) (caches : Caches) :
    ∃ q row, row.cells = r ∧ Shows q row ∧ q.options = p.options ∧ q.rows = p.rows + 1 ∧
      s.stepOnce caches = (.ok .progressed, s.after q ((s.intake caches).received row) s.status,
        ((s.intake caches).received row).caches) ∧
      Facing (s.after q ((s.intake caches).received row) s.status) q more := by
  have turns := stepOnce_turns facing caches
  rcases stepped : s.stepOnce caches with ⟨outcome, s', caches'⟩
  rw [stepped] at turns
  generalize ahead : r :: more = rs at turns
  cases turns with
  | row q row more' shows_ options counted first facing =>
    obtain ⟨rfl, rfl⟩ := List.cons.inj ahead
    exact ⟨q, row, rfl, shows_, options, counted, rfl, facing⟩
  | noMore q options counted used =>
    exact absurd (Parser.last_of_ahead_nil ahead.symm) some
  | failed error q first rest exceeded =>
    obtain ⟨rfl, -⟩ := List.cons.inj ahead
    exact absurd exceeded (not_exceeded fits)

theorem Used.finish_wide (used : Used p) (only : p.ahead [] = [r])
    (wide : p.options.maxColumns < r.length) (parser : s.parser = some p)
    (unfinished : s.finished = false) (caches : Caches) :
    ∃ q, s.finish caches = (.error (.tooManyColumns (p.rows + 1) p.options.maxColumns),
      { s.after q (s.intake caches)
          (.failed (Error.message (.tooManyColumns (p.rows + 1) p.options.maxColumns))) with
        finished := true }, caches) := by
  cases Parser.finish_concluding (Or.inr used.exhausted) used.checked used.left used.used with
  | none q nothing finish =>
    rw [only] at nothing
    cases nothing
  | row q last whole continues only' finish =>
    have same := List.head_eq_of_cons_eq (only.symm.trans only')
    have narrow : q.doneCells.length ≤ p.options.maxColumns := by
      simpa [← show q.options = p.options from continues.options] using whole.columns_le
    rw [same] at wide
    exact absurd narrow (Nat.not_le_of_lt wide)
  | failed q first continues only' wide' finish =>
    have finished : p.finish Intake.receive { sink := s.sink, nextId := s.nextId, caches } = _ :=
      finish Intake Intake.receive (s.intake caches)
    unfold Session.finish
    rw [unfinished, if_neg Bool.false_ne_true, parser]
    dsimp only
    rw [finished]
    exact ⟨_, rfl⟩

theorem Facing.pull_wide (facing : Facing s p (r :: more)) (wide : p.options.maxColumns < r.length)
    (sink : s.sink = .data) (caches : Caches) :
    ∃ error s', s.pull caches = (.error error, s', caches) ∧
      s'.status = .failed error.message ∧ Exceeded p.options r (p.rows + 1) error := by
  have turns := stepOnce_turns facing caches
  rw [Session.pull, advance_data facing.status sink]
  rcases stepped : s.stepOnce caches with ⟨outcome, s', caches'⟩
  rw [stepped] at turns
  generalize ahead : r :: more = rs at turns
  cases turns with
  | row q row more' shows_ options counted fits facing =>
    obtain ⟨rfl, -⟩ := List.cons.inj ahead
    exact absurd fits.1 (Nat.not_le_of_lt wide)
  | noMore q options counted used =>
    -- It is the last record, and has no line break behind it.
    have last := Parser.last_of_ahead_nil ahead.symm
    subst last
    rw [← options] at wide
    obtain ⟨u, finished⟩ := used.finish_wide (s := s.after q (s.intake caches) .exhausted)
      ahead.symm wide rfl facing.unfinished caches
    dsimp only
    rw [finished]
    refine ⟨_, _, rfl, rfl, ?_⟩
    rw [← options, ← counted]
    exact .columns wide
  | failed error q first rest exceeded =>
    obtain ⟨rfl, -⟩ := List.cons.inj ahead
    exact ⟨error, _, rfl, rfl, exceeded⟩

/-! ## Up to the bad row, and behind it -/

namespace State

variable {t : State} {limits : Csv.Options} {k : Nat} {record : Record} {rest : List Record}

/-- A table that has left `k` rows of data behind and looks for the next one, which is the first of
the given records. -/
structure Before (t : State) (limits : Csv.Options) (k : Nat) (rs : List Record) : Prop where
  facing : ∃ p, Facing t.session p rs ∧ p.options = limits ∧ p.rows = k + 1
  sink : t.session.sink = .data
  nextId : t.session.nextId = k + 1
  none : t.caches.data = {}

/-- A table of which a scan has failed. -/
structure Stuck (t : State) (description : String) : Prop where
  status : t.session.status = .failed description
  none : t.caches.data = {}

theorem Before.pull (before : t.Before limits k (record :: rest)) (fits : limits.Fits record)
    (some : rest ≠ []) :
    ∃ here : State, t.pull = (.ok (), here) ∧ here.HasRow k record ∧ rest.length < here.rowBound ∧
      ∃ again : State, here.next = again.pull ∧ again.Before limits (k + 1) rest := by
  obtain ⟨p, facing, rfl, rows⟩ := before.facing
  obtain ⟨q, row, rfl, shows_, options, counted, stepped, onward⟩ :=
    facing.stepOnce fits some t.caches
  have received := received_data (i := t.session.intake t.caches) before.sink row
  have head : t.caches.data.append (.borrowed row t.session.nextId) =
      { rows := #[.borrowed row (k + 1)] } := by
    rw [before.none, before.nextId]
    rfl
  rw [received] at stepped onward
  let here : State := { t with
    session := t.session.after q { t.session.intake t.caches with
      nextId := t.session.nextId + 1
      caches.data := t.caches.data.append (.borrowed row t.session.nextId) } t.session.status
    caches.data := t.caches.data.append (.borrowed row t.session.nextId) }
  have has : here.HasRow k row.cells := ⟨q, row, rfl, shows_, rfl, head⟩
  refine ⟨here, ?_, has, ?_, { here with caches.data := {} }, ?_, ?_⟩
  · unfold State.pull Session.pull
    rw [advance_data facing.status before.sink, stepped]
    rfl
  · have bound := onward.bound
    unfold State.rowBound
    rw [show here.caches.data = _ from head]
    show rest.length < 1 + q.work
    omega
  · unfold State.next
    rw [has.pop]
    rfl
  · refine ⟨⟨q, onward, options, by rw [counted, rows]⟩, before.sink, ?_, rfl⟩
    show t.session.nextId + 1 = ((k + 1 : Nat) : Int) + 1
    rw [before.nextId]
    rfl

theorem Before.pull_wide (before : t.Before limits k (record :: rest))
    (wide : limits.maxColumns < record.length) :
    ∃ (error : Error) (here : State), t.pull = (.error error, here) ∧ here.Stuck error.message ∧
      Exceeded limits record (k + 2) error := by
  obtain ⟨p, facing, rfl, rows⟩ := before.facing
  obtain ⟨error, s', pulled, status, exceeded⟩ := facing.pull_wide wide before.sink t.caches
  refine ⟨error, { t with session := s' }, ?_, ⟨status, before.none⟩, ?_⟩
  · unfold State.pull
    rw [pulled]
  · rw [rows] at exceeded
    exact exceeded

/-- What is seen of a table that tells of a failure and shows no row. -/
structure Reports (t : State) (description : String) : Prop where
  atEnd : t.atEnd = true
  rowid : t.rowid = noRowid
  column : ∀ context index, t.column context index = .ok context.setNull
  next : ∃ error here, t.next = (.error error, here) ∧ error.message = description

theorem Stuck.next {description : String} (stuck : t.Stuck description) :
    t.next = (.error (.parse description), t) := by
  have none := stuck.none
  have same : { t with caches.data := {} } = t := by
    rw [← none]
  unfold State.next
  rw [none]
  show State.pull { t with caches.data := {} } = _
  rw [same]
  unfold State.pull Session.pull Session.advance
  rw [stuck.status]

theorem Stuck.reports {description : String} (stuck : t.Stuck description) :
    t.Reports description := by
  have none := stuck.none
  refine ⟨?_, ?_, fun context index => ?_, ⟨_, _, stuck.next, rfl⟩⟩
  · rw [State.atEnd, none, Session.isDone, stuck.status]
    rfl
  · rw [State.rowid, none]
    rfl
  · unfold State.column
    rw [none]
    split <;> rfl

theorem Stuck.run {description : String} (stuck : t.Stuck description) (ops : List Operation)
    (scanning : Operation.filter ∉ ops) (connected : Operation.disconnect ∉ ops) :
    (t.run ops).Stuck description := by
  induction ops generalizing t with
  | nil => exact stuck
  | cons op later ih =>
    rw [List.mem_cons, not_or] at scanning connected
    refine ih ?_ scanning.2 connected.2
    cases op with
    | filter => exact absurd rfl scanning.1
    | disconnect => exact absurd rfl connected.1
    | closeCursor | column | rowid | atEnd => exact { stuck with }
    | rewrite content => exact { stuck with }
    | next =>
      show t.next.2.Stuck description
      rw [stuck.next]
      exact stuck
    | openCursor =>
      show t.openCursor.2.Stuck description
      unfold State.openCursor
      split <;> exact { stuck with }

/-! ## Scans -/

variable {params : Params} {content : Bytes} {header : Record} {data : List Record}

theorem Kept.before (kept : t.Kept params content) (allowed : params.limits.Allowed)
    (single : SingleMark content) (records : reference Byte.comma content = header :: data)
    (fits : params.limits.Fits header) (some : data ≠ []) :
    ∃ again : State, t.filter = again.pull ∧ again.Before params.limits 0 data := by
  obtain ⟨source, fresh, filtered, facing, sink, nextId, none⟩ := kept.begins allowed single
  rw [records] at facing
  obtain ⟨q, row, -, -, options, counted, stepped, onward⟩ :=
    facing.stepOnce fits some fresh.caches
  have received := received_skipHeader (i := fresh.session.intake fresh.caches) sink row
  rw [received] at stepped onward
  refine ⟨{ fresh with
    session := fresh.session.after q { fresh.session.intake fresh.caches with sink := .data }
      fresh.session.status }, ?_, ⟨q, onward, options, counted⟩, rfl, nextId, none⟩
  rw [filtered]
  unfold State.pull
  rw [pull_header facing.status sink stepped onward.status rfl]
  rfl

/-- A table of which a scan comes to the given data, with row `b` behind others that are all within
the limits. -/
structure GoodUpTo (t : State) (limits : Csv.Options) (data : List Record) (b : Nat) : Prop where
  begins : ∃ again : State, t.filter = again.pull ∧ again.Before limits 0 data
  inside : b < data.length
  fits : ∀ r ∈ data.take b, limits.Fits r

variable {b : Nat}

theorem GoodUpTo.smaller (good : t.GoodUpTo limits data b) (front : k < b) :
    t.GoodUpTo limits data k where
  begins := good.begins
  inside := Nat.lt_trans front good.inside
  fits := fun r member => good.fits r (List.take_subset_take_left data (Nat.le_of_lt front) member)

theorem GoodUpTo.fits_at (good : t.GoodUpTo limits data b) (front : k < b)
    (at_ : data[k]? = some record) : limits.Fits record := by
  refine good.fits record (List.mem_of_getElem? (i := k) ?_)
  rw [List.getElem?_take_of_lt front, at_]

theorem GoodUpTo.scan (good : t.GoodUpTo limits data b) :
    ∃ again : State, t.scan b = again.pull ∧ again.Before limits b (data.drop b) := by
  induction b with
  | zero => exact good.begins
  | succ b ih =>
    have inside := good.inside
    obtain ⟨fresh, scanned, before⟩ := ih (good.smaller (Nat.lt_succ_self b))
    have more : data.drop (b + 1) ≠ [] := by
      rw [Ne, List.drop_eq_nil_iff]
      exact Nat.not_le_of_lt inside
    rw [List.drop_eq_getElem_cons (Nat.lt_of_succ_lt inside)] at before
    obtain ⟨here, pulled, -, -, again, moved, onward⟩ :=
      before.pull (good.fits_at (Nat.lt_succ_self b) (List.getElem?_eq_getElem _)) more
    refine ⟨again, ?_, onward⟩
    rw [State.scan, scanned, pulled]
    exact moved

theorem GoodUpTo.scan_shows (good : t.GoodUpTo limits data b) (front : k < b) :
    ∃ (here : State) (record : Record), t.scan k = (.ok (), here) ∧ here.HasRow k record ∧
      data[k]? = some record ∧ data.length ≤ k + 1 + here.rowBound := by
  have inside := good.inside
  have within : k < data.length := Nat.lt_trans front inside
  obtain ⟨fresh, scanned, before⟩ := (good.smaller front).scan
  have more : data.drop (k + 1) ≠ [] := by
    rw [Ne, List.drop_eq_nil_iff]
    omega
  rw [List.drop_eq_getElem_cons within] at before
  have at_ : data[k]? = some data[k] := List.getElem?_eq_getElem within
  obtain ⟨here, pulled, has, bound, -⟩ := before.pull (good.fits_at front at_) more
  refine ⟨here, data[k], scanned.trans pulled, has, at_, ?_⟩
  rw [List.length_drop] at bound
  omega

theorem GoodUpTo.scan_fails (good : t.GoodUpTo limits data b) {bad : Record}
    (found : data[b]? = some bad) (wide : limits.maxColumns < bad.length) :
    ∃ (error : Error) (here : State), t.scan b = (.error error, here) ∧ here.Stuck error.message ∧
      Exceeded limits bad (b + 2) error := by
  obtain ⟨inside, rfl⟩ := List.getElem?_eq_some_iff.mp found
  obtain ⟨fresh, scanned, before⟩ := good.scan
  rw [List.drop_eq_getElem_cons inside] at before
  rw [scanned]
  exact before.pull_wide wide

theorem rowsFrom_fails {b : Nat} {error : Error} (failing : (t.scan b).1 = .error error)
    (reads : ∀ k < b, ∃ (here : State) (record : Record),
      t.scan k = (.ok (), here) ∧ here.HasRow k record)
    (width : Nat) (before : List Host.ScannedRow) {limit : Nat} (front : k < b)
    (enough : b ≤ k + limit) :
    (Host.rowsFrom width before limit (t.scan k).2).1 = .error error := by
  induction limit generalizing k before with
  | zero => exact absurd enough (Nat.not_le_of_lt front)
  | succ limit ih =>
    obtain ⟨here, record, scanned, has⟩ := reads k front
    have moved : t.scan (k + 1) = here.next := by
      rw [State.scan, scanned]
    rw [scanned, Host.rowsFrom, show Host.Cursor.atEnd here = _ from has.atEnd,
      if_neg Bool.false_ne_true, has.currentRow]
    dsimp only
    rw [show Host.Cursor.next here = _ from moved.symm]
    rcases Nat.lt_or_ge (k + 1) b with inside | reached
    · have later := ih (rowOf width k record :: before) inside (by omega)
      obtain ⟨there, -, scanned', -⟩ := reads (k + 1) inside
      rw [scanned'] at later ⊢
      exact later
    · obtain rfl : k + 1 = b := Nat.le_antisymm front reached
      rcases result : t.scan (k + 1) with ⟨outcome, there⟩
      rw [result] at failing
      dsimp only at failing
      rw [failing]

theorem GoodUpTo.allRows_fails (good : t.GoodUpTo limits data b) {error : Error}
    (failing : (t.scan b).1 = .error error) (width : Nat) :
    (Host.allRows width t).1 = .error error := by
  have inside := good.inside
  unfold Host.allRows
  rw [show Host.Cursor.filter t = t.scan 0 from rfl]
  rcases Nat.eq_zero_or_pos b with rfl | later
  · rcases result : t.scan 0 with ⟨outcome, here⟩
    rw [result] at failing
    dsimp only at failing
    rw [failing]
  · obtain ⟨here, record, scanned, has, -, bound⟩ := good.scan_shows later
    have reads : ∀ k < b, ∃ (here : State) (record : Record),
        t.scan k = (.ok (), here) ∧ here.HasRow k record := by
      intro k front
      obtain ⟨here, record, scanned, has, -⟩ := good.scan_shows front
      exact ⟨here, record, scanned, has⟩
    have enough : b ≤ 0 + (here.rowBound + 1) := by omega
    have whole := rowsFrom_fails failing reads width [] later enough
    rw [scanned] at whole ⊢
    exact whole

end State

theorem header_fits {source : Source} {content : Bytes} {maxColumns : Nat} {cells : List Cell}
    {header : Record} {data : List Record}
    (read : readHeader source maxColumns = .ok (cells, s, caches)) (serves : source.Serves content)
    (front : source.rest = content) (single : SingleMark content)
    (records : reference Byte.comma content = header :: data) (more : data ≠ []) :
    ({ maxColumns } : Options).Fits header := by
  obtain ⟨session, made, pulled, -⟩ := readHeader_inv read
  obtain ⟨allowed, rfl⟩ := session_new_inv made
  have facing : Facing
      { parser := some (Parser.initial source { maxColumns }), options := { maxColumns } }
      (Parser.initial source { maxColumns }) (reference Byte.comma content) :=
    facing_initial rfl rfl rfl serves front allowed single
  have turns := stepOnce_turns facing {}
  unfold Session.pull Session.advance at pulled
  dsimp only at pulled
  rcases stepped : Session.stepOnce
    { parser := some (Parser.initial source { maxColumns }), options := { maxColumns } } {} with
    ⟨outcome, s', caches'⟩
  rw [stepped] at turns pulled
  generalize ahead : reference Byte.comma content = rs at turns
  have split := ahead.symm.trans records
  cases turns with
  | row q row rest shows_ options counted fits facing =>
    obtain ⟨rfl, -⟩ := List.cons.inj split
    exact fits
  | noMore q options counted used => exact absurd (Parser.last_of_ahead_nil split) more
  | failed error q first rest exceeded => cases pulled

variable {disk : Disk} {arguments : List String} {declaration : Host.Declaration}
  {blanks : BlankCounter} {t : State} {opened : Disk.Opened} {b : Nat} {bad : Record}

theorem Reachable.scan {s : State} (reachable : Reachable t s) (k : Nat) :
    Reachable t (s.scan k).2 := by
  induction k with
  | zero => exact reachable.filter
  | succ k ih =>
    rw [State.scan]
    rcases scanned : s.scan k with ⟨error | _, here⟩ <;> rw [scanned] at ih
    · exact ih
    · exact ih.next

/-- Every state of a connected table is in front of the same rows, up to one behind rows that are
within the limits. -/
theorem goodUpTo_of_connected
    (connected : (connect disk arguments declaration blanks).result = .ok t)
    (opens : openSource disk t.params.source = .ok opened)
    (single : SingleMark opened.source.content)
    (inside : b < (reference Byte.comma opened.source.content).tail.length)
    (fits : ∀ r ∈ (reference Byte.comma opened.source.content).tail.take b, t.params.limits.Fits r)
    {s : State} (reachable : Reachable t s) :
    s.GoodUpTo t.params.limits (reference Byte.comma opened.source.content).tail b := by
  obtain ⟨allowed, same, opens', kept⟩ := connect_kept connected
  cases opens.symm.trans opens'
  obtain ⟨same, cells, opens', plain, read⟩ := connect_header connected
  cases opens.symm.trans opens'
  have serves := serves_ofBytes opened.source.content
  have front : opened.source.rest = opened.source.content := by
    rw [plain]
    rfl
  rw [← plain] at serves
  have more := List.ne_nil_of_length_pos (Nat.zero_lt_of_lt inside)
  rcases records : reference Byte.comma opened.source.content with _ | ⟨header, data⟩
  · rw [records] at inside
    exact absurd inside (Nat.not_lt_zero b)
  · rw [records] at inside fits more
    have narrow := header_fits read serves front single records more
    exact ⟨(reachable.kept kept allowed).before allowed single records narrow more, inside, fits⟩

/-- Where a row of data is too wide and those in front of it are within the limits, every scan shows
the rows in front of it and fails in the call that comes to it, with one and the same error. From
then on the table shows nothing and reports the failure until it is scanned again. Nor can it be read
as a whole. -/
theorem bad_row_is_reported
    (connected : (connect disk arguments declaration blanks).result = .ok t)
    (opens : openSource disk t.params.source = .ok opened)
    (single : SingleMark opened.source.content)
    (found : (reference Byte.comma opened.source.content).tail[b]? = some bad)
    (wide : t.params.maxColumns < bad.length)
    (fits : ∀ r ∈ (reference Byte.comma opened.source.content).tail.take b,
      t.params.limits.Fits r) :
    let data := (reference Byte.comma opened.source.content).tail
    ∃ error, Exceeded t.params.limits bad (b + 2) error ∧ ∀ s, Reachable t s →
      (∀ k < b, ∃ here, s.scan k = (.ok (), here) ∧ here.ShowsRow data k) ∧
      (∃ here, s.scan b = (.error error, here) ∧ Reachable t here ∧
        ∀ ops, Operation.filter ∉ ops → Operation.disconnect ∉ ops →
          (here.run ops).Reports error.message) ∧
      ∀ (c : Host.Connection) (handle : Host.TableHandle) (number : Nat),
        handle.table = .csv number → c.tables[number]? = some s →
          (c.scanAll handle .direct).1 =
            .error (if s.cursorOpen then .cursorBusy s.name else error) := by
  intro data
  obtain ⟨inside, -⟩ := List.getElem?_eq_some_iff.mp found
  have good : ∀ {s}, Reachable t s → s.GoodUpTo t.params.limits data b :=
    goodUpTo_of_connected connected opens single inside fits
  obtain ⟨error, first, failing, -, exceeded⟩ := (good .start).scan_fails found wide
  -- All scans come to the same, so what one of them reports is what each of them reports.
  have fails : ∀ {s}, Reachable t s → (s.scan b).1 = .error error := fun reachable =>
    (scan_alike connected reachable .start b).1.trans (congrArg Prod.fst failing)
  refine ⟨error, exceeded, fun s reachable => ⟨fun k front => ?_, ?_, ?_⟩⟩
  · obtain ⟨here, record, scanned, has, at_, -⟩ := (good reachable).scan_shows front
    exact ⟨here, scanned, has.shows at_⟩
  · obtain ⟨error', here, scanned, stuck, -⟩ := (good reachable).scan_fails found wide
    have same := fails reachable
    have onward := reachable.scan b
    rw [scanned] at same onward
    cases same
    exact ⟨here, scanned, onward, fun ops scanning connected =>
      (stuck.run ops scanning connected).reports⟩
  · intro c handle number table tables
    cases busy : s.cursorOpen with
    | true => rw [(Host.Connection.scan_busy table tables busy).2, if_pos rfl]
    | false =>
      have opened_ : Reachable t { s with cursorOpen := true } := by
        have opening := reachable.openCursor
        rwa [State.openCursor, busy, if_neg Bool.false_ne_true] at opening
      rw [Host.Connection.scanAll_free table tables busy, if_neg Bool.false_ne_true]
      exact (good opened_).allRows_fails (fails opened_) handle.schema.columns.length

/-- The last row is too wide and has no line break behind it, and a scan has failed of it before. -/
theorem bad_row_is_reported_again :
    let data : List Record := [[⟨[49], false⟩], [⟨[50], false⟩, ⟨[51], false⟩]]
    let error : Error := .tooManyColumns 3 1
    ∃ t, (connect {} ["csv", "main", "t", "data=a\n1\n2,3", "max_columns=1"] {} 0).result = .ok t ∧
      let s := t.openCursor.2.filter.2.next.2.closeCursor
      (∃ here, s.scan 0 = (.ok (), here) ∧ here.ShowsRow data 0) ∧
      (∃ here, s.scan 1 = (.error error, here) ∧
        (here.run [.next, .rowid, .next]).Reports "too many columns: row 3 has more than 1") ∧
      ∀ handle : Host.TableHandle, handle.table = .csv 0 →
        (({ tables := #[s] } : Host.Connection).scanAll handle .direct).1 = .error error := by
  intro data error
  have input : Utf8.encode "a\n1\n2,3" = [97, 10, 49, 10, 50, 44, 51] := by decide +kernel
  have parsed : Params.parse
      (["csv", "main", "t", "data=a\n1\n2,3", "max_columns=1"].drop 3) =
        .ok { data := some "a\n1\n2,3", maxColumns := 1 } := by
    decide +kernel
  have opens : openSource {} ({ data := some "a\n1\n2,3", maxColumns := 1 } : Params).source =
      .ok { source := .ofBytes [97, 10, 49, 10, 50, 44, 51] } := by
    rw [← input]
    rfl
  have read : (readHeader (.ofBytes [97, 10, 49, 10, 50, 44, 51]) 1).map Prod.fst =
      .ok [⟨[97], false⟩] := by
    decide +kernel
  obtain ⟨t, connected, same⟩ := connect_of_header parsed opens read
    ⟨_, declareColumns_ok (List.cons_ne_nil _ _) {} 0⟩
  rw [← same] at opens
  have records : (reference Byte.comma [97, 10, 49, 10, 50, 44, 51]).tail = data := by
    decide +kernel
  have fits : ∀ r ∈ (reference Byte.comma [97, 10, 49, 10, 50, 44, 51]).tail.take 1,
      t.params.limits.Fits r := by
    rw [same, records]
    decide
  have wide : t.params.maxColumns < 2 := by
    rw [same]
    decide
  have found : (reference Byte.comma [97, 10, 49, 10, 50, 44, 51]).tail[1]? = some data[1] := by
    rw [records]
    rfl
  obtain ⟨error', exceeded, reported⟩ :=
    bad_row_is_reported connected opens (by decide) found wide fits
  obtain ⟨shown, ⟨here, scanned, -, onward⟩, whole⟩ :=
    reported _ (.closeCursor (.next (.filter (.openCursor .start))))
  rw [same] at exceeded
  cases exceeded with
  | size large => exact absurd large (by decide)
  | columns wide =>
    refine ⟨t, connected, ?_, ⟨here, scanned, onward _ (by simp) (by simp)⟩,
      fun handle table => whole _ handle 0 table rfl⟩
    rw [← records]
    exact shown 0 Nat.zero_lt_one

end Tabular.Table
