import Tabular.Proofs.Table.Lookahead
import Tabular.Proofs.Table.Scan

/-!
Scans that repeat each other. Nothing is scheduled for the source of a connected table, so a scan
goes back to one and the same session wherever the table was left, and then does the same things.
-/
namespace Tabular

structure Source.Ordinary (s : Source) (content : Bytes) : Prop where
  content : s.content = content
  reads : s.reads = []
  seeks : s.seeks = []

theorem Source.Ordinary.rewind {s : Source} {content : Bytes} (ordinary : s.Ordinary content) :
    s.rewind = (.ok (), .ofBytes content) := by
  obtain ⟨offset, rest⟩ := s
  obtain ⟨rfl, rfl, rfl⟩ := ordinary
  rfl

namespace Table

open Csv

theorem invariant_ordinary (content : Bytes) :
    Parser.Invariant Intake.receive fun p _ => p.source.Ordinary content where
  begins := fun _ _ _ holds => holds
  moves := by
    intro p q i _ move ordinary
    have continues := move.continues
    have fewer := continues.reads
    rw [ordinary.reads] at fewer
    exact {
      content := continues.content.trans ordinary.content
      reads := List.suffix_nil.mp fewer
      seeks := continues.seeks.trans ordinary.seeks }
  delivers := fun _ _ _ _ holds => holds
  ends := fun _ _ _ _ holds => holds

/-- The session a scan begins with where the header is kept. -/
def sessionAgain (content : Bytes) (limits : Options) : Session where
  parser := some (Parser.initial (.ofBytes content) limits)
  options := limits
  sink := .skipHeader

/-- Two tables with the same session and the same rows at hand. -/
structure Alike (s t : State) : Prop where
  session : s.session = t.session
  caches : s.caches = t.caches

theorem Alike.pull {s t : State} (alike : Alike s t) :
    s.pull.1 = t.pull.1 ∧ Alike s.pull.2 t.pull.2 := by
  unfold State.pull
  rw [alike.session, alike.caches]
  exact ⟨rfl, rfl, rfl⟩

theorem Alike.next {s t : State} (alike : Alike s t) :
    s.next.1 = t.next.1 ∧ Alike s.next.2 t.next.2 := by
  have popped : Alike { s with caches.data := s.caches.data.pop }
      { t with caches.data := t.caches.data.pop } :=
    ⟨alike.session, by rw [alike.caches]⟩
  unfold State.next
  dsimp only
  rw [show s.caches.data.pop.isEmpty = t.caches.data.pop.isEmpty by rw [alike.caches]]
  split
  · exact popped.pull
  · exact ⟨rfl, popped⟩

structure State.Repeats (t : State) (limits : Options) (content : Bytes) (header : RowCache) :
    Prop where
  holding : Holding (fun p _ => p.source.Ordinary content) limits t.session t.caches
  ahead : t.LooksAhead header

variable {t : State} {limits : Options} {content : Bytes} {header : RowCache}

namespace State

/-- Wherever a table is, a scan begins as if nothing had been done before. -/
theorem Repeats.filter_eq (repeats : t.Repeats limits content header) (allowed : limits.Allowed) :
    t.filter = State.pull { t with
      session := sessionAgain content limits, caches := { header, data := {} } } := by
  obtain ⟨p, parser, layout, ordinary⟩ := repeats.holding.parser
  have kept : t.caches.header.isEmpty = false := by
    rw [repeats.ahead.same]
    exact repeats.ahead.kept (by rw [parser]; exact Option.some_ne_none p)
  have rewound := rewind_eq parser repeats.holding.options_eq allowed ordinary.rewind true
  unfold State.filter
  dsimp only
  rw [kept, Bool.not_false, rewound]
  dsimp only
  rw [repeats.holding.options_eq, repeats.ahead.same]
  rfl

theorem Repeats.filter (repeats : t.Repeats limits content header) (allowed : limits.Allowed) :
    t.filter.2.Repeats limits content header := by
  refine ⟨?_, (filter_looksAhead repeats.ahead).1⟩
  rw [repeats.filter_eq allowed]
  have again : Holding (fun p _ => p.source.Ordinary content) limits
      (sessionAgain content limits) { header, data := {} } :=
    ⟨⟨_, rfl, Parser.layout_initial _ _, rfl, rfl, rfl⟩, rfl⟩
  exact again.pull (invariant_ordinary content)

theorem Repeats.next (repeats : t.Repeats limits content header) :
    t.next.2.Repeats limits content header := by
  refine ⟨?_, (next_looksAhead repeats.ahead).1⟩
  have popped : Holding (fun p _ => p.source.Ordinary content) limits t.session
      { t.caches with data := t.caches.data.pop } := { repeats.holding with }
  unfold State.next
  dsimp only
  split
  · exact popped.pull (invariant_ordinary content)
  · exact popped

theorem Repeats.openCursor (repeats : t.Repeats limits content header) :
    t.openCursor.2.Repeats limits content header := by
  unfold State.openCursor
  split
  · exact repeats
  · exact { repeats with }

theorem Repeats.scan {s : State} (first : t.Repeats limits content header)
    (second : s.Repeats limits content header) (allowed : limits.Allowed) (k : Nat) :
    (t.scan k).1 = (s.scan k).1 ∧ Alike (t.scan k).2 (s.scan k).2 := by
  induction k with
  | zero =>
    rw [State.scan, State.scan, first.filter_eq allowed, second.filter_eq allowed]
    exact Alike.pull ⟨rfl, rfl⟩
  | succ k ih =>
    obtain ⟨same, alike⟩ := ih
    rw [State.scan, State.scan]
    rcases first' : t.scan k with ⟨outcome, t'⟩
    rcases second' : s.scan k with ⟨outcome', s'⟩
    rw [first', second'] at same alike
    dsimp only at same alike
    subst same
    rcases outcome with error | _
    · exact ⟨rfl, alike⟩
    · exact alike.next

end State

theorem Reachable.repeats {s : State} (reachable : Reachable t s)
    (repeats : t.Repeats limits content header) (allowed : limits.Allowed) :
    s.Repeats limits content header := by
  induction reachable with
  | start => exact repeats
  | openCursor before ih => exact ih.openCursor
  | closeCursor before ih => exact { ih with }
  | filter before ih => exact ih.filter allowed
  | next before ih => exact ih.next

theorem connect_repeats {disk : Disk} {arguments : List String} {declaration : Host.Declaration}
    {blanks : BlankCounter}
    (connected : (connect disk arguments declaration blanks).result = .ok t) :
    t.params.limits.Allowed ∧ ∃ content header, t.Repeats t.params.limits content header := by
  obtain ⟨opened, cells, -, plain, read⟩ := connect_header connected
  obtain ⟨session, made, pulled, -⟩ := readHeader_inv read
  obtain ⟨allowed, rfl⟩ := session_new_inv made
  have begun : Holding (fun p _ => p.source.Ordinary opened.source.content) t.params.limits
      { parser := some (Parser.initial opened.source t.params.limits), options := t.params.limits }
      {} := by
    rw [plain]
    exact ⟨⟨_, rfl, Parser.layout_initial _ _, rfl, rfl, rfl⟩, rfl⟩
  have holding := begun.pull (invariant_ordinary opened.source.content)
  rw [show t.params.limits = { maxColumns := t.params.maxColumns } from rfl, pulled] at holding
  exact ⟨allowed, _, _, holding, readHeader_ahead read⟩

/-- Whatever was done on a table since it was connected, as often as it is scanned the scans come to
the same, row by row. -/
theorem scan_alike {disk : Disk} {arguments : List String} {declaration : Host.Declaration}
    {blanks : BlankCounter} {s s' : State}
    (connected : (connect disk arguments declaration blanks).result = .ok t)
    (first : Reachable t s) (second : Reachable t s') (k : Nat) :
    (s.scan k).1 = (s'.scan k).1 ∧ Alike (s.scan k).2 (s'.scan k).2 := by
  obtain ⟨allowed, content, header, repeats⟩ := connect_repeats connected
  exact (first.repeats repeats allowed).scan (second.repeats repeats allowed) allowed k

end Table

end Tabular
