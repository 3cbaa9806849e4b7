import Tabular.Proofs.Csv.Delivery
import Tabular.Proofs.Csv.Lockstep
import Tabular.Proofs.Echo.MergeJoin

/-!
Two merges side by side. They fetch, skip and write alike until the first of them fails, be it in a
fetch or in a write, and by then it has written nothing that the second does not write.
-/
namespace Tabular

open Writing (bytes Alike)

namespace Patch.Stream

/-- The second stream holds the same overwrites, and no fetch of it fails as long as the first goes
on. -/
structure OutlastedBy (s s' : Stream) : Prop where
  remaining : s.remaining = s'.remaining
  fetches : s.fetches = s'.fetches
  fault : ∀ late detail, s'.fault = some (late, detail) → s'.fetches < late →
    ∃ number detail, s.fault = some (number, detail) ∧ s.fetches < number ∧ number ≤ late

theorem OutlastedBy.refl (s : Stream) : s.OutlastedBy s :=
  ⟨rfl, rfl, fun number detail fault ahead => ⟨number, detail, fault, ahead, Nat.le_refl _⟩⟩

end Patch.Stream

namespace Patch.Stream

theorem OutlastedBy.fetch {s s' : Stream} (outlasted : s.OutlastedBy s') :
    (∃ detail t, s.fetch = (.error (.overwriteSource detail), t)) ∨
      ∃ found t t', s.fetch = (.ok found, t) ∧ s'.fetch = (.ok found, t') ∧ t.OutlastedBy t' := by
  by_cases fails : ∃ detail, s.fault = some (s.fetches + 1, detail)
  · obtain ⟨detail, fault⟩ := fails
    refine Or.inl ⟨detail, { s with fetches := s.fetches + 1 }, ?_⟩
    simp only [Stream.fetch, fault, ↓reduceIte]
  · have goes_on : ∀ number detail, s.fault = some (number, detail) → s.fetches + 1 ≠ number := by
      rintro number detail fault rfl
      exact fails ⟨detail, fault⟩
    have goes_on' : ∀ late detail, s'.fault = some (late, detail) → s'.fetches + 1 ≠ late := by
      rintro late detail fault rfl
      obtain ⟨number, detail, fault, ahead, before⟩ :=
        outlasted.fault _ _ fault (Nat.lt_succ_self _)
      have := outlasted.fetches
      exact goes_on number detail fault (by omega)
    have fetched' := Echo.Merge.stream_fetch goes_on'
    rw [← outlasted.remaining] at fetched'
    refine Or.inr ⟨_, _, _, Echo.Merge.stream_fetch goes_on, fetched', rfl,
      congrArg (· + 1) outlasted.fetches, ?_⟩
    intro late detail fault ahead
    obtain ⟨number, detail, fault, next, before⟩ :=
      outlasted.fault late detail fault (Nat.lt_of_succ_lt ahead)
    have other := goes_on number detail fault
    exact ⟨number, detail, fault, by show s.fetches + 1 < number; omega, before⟩

end Patch.Stream

namespace Echo.Merge

open Csv Patch

instance : Writing Merge where
  bytes m := m.writer.out.bytes
  Alike m m' := ∃ out patches, m.writer.out.OutlastedBy out ∧ m.patches.OutlastedBy patches ∧
    m' = { m with writer := { m.writer with out }, patches }
  refl m := ⟨m.writer.out, m.patches, .refl _, .refl _, rfl⟩
  bytes_eq := by
    rintro m _ ⟨out, patches, outlasted, -, rfl⟩
    exact outlasted.bytes_eq

theorem pending_alike {m m' : Merge} (alike : Alike m m') : m.pending = m'.pending := by
  obtain ⟨out, patches, -, -, rfl⟩ := alike
  rfl

theorem stats_alike {m m' : Merge} (alike : Alike m m') : m.stats = m'.stats := by
  obtain ⟨out, patches, -, -, rfl⟩ := alike
  rfl

@[simp] theorem fetch_writer (m : Merge) : m.fetch.2.writer = m.writer := by
  unfold fetch
  rcases m.patches.fetch with ⟨error | pending, patches⟩ <;> rfl

@[simp] theorem fetch_bytes (m : Merge) : bytes m.fetch.2 = bytes m :=
  congrArg (fun w => w.out.bytes) m.fetch_writer

theorem fetch_lockstep : Lockstep fun m : Merge => m.fetch where
  grows m := m.fetch_bytes ▸ List.prefix_rfl
  abreast {m m'} alike := by
    have same := Writing.bytes_eq alike
    rw [← m.fetch_bytes, ← m'.fetch_bytes] at same
    obtain ⟨out, patches, written, fetched, rfl⟩ := alike
    unfold fetch at same ⊢
    rcases fetched.fetch with ⟨detail, t, failed⟩ | ⟨found, t, t', found_t, found_t', later⟩
    · rw [failed] at same ⊢
      exact .behind (.overwriteSource detail) _ (same ▸ List.prefix_rfl)
    · dsimp only
      rw [found_t, found_t']
      exact .along () ⟨out, t', written, later, rfl⟩

theorem skipBefore_eq (m : Merge) (row : Nat) :
    m.skipBefore row = match m.pending with
      | none => (.ok (), m)
      | some o =>
        if row ≤ o.row then (.ok (), m) else andThen m.fetch fun _ m => m.skipBefore row := by
  rw [skipBefore]
  split
  · rename_i held
    rw [held]
  · rename_i o held
    rw [held]
    dsimp only
    split
    · rfl
    · split <;> rename_i fetched <;> rw [fetched] <;> rfl

@[simp] theorem skipBefore_bytes (m : Merge) (row : Nat) :
    bytes (m.skipBefore row).2 = bytes m := by
  have fetching := m.fetch_bytes
  fun_induction skipBefore m row with
  | case1 m held => rfl
  | case2 m o held reached => rfl
  | case3 m o held before error n fetched => 
    rw [fetched] at fetching
    exact fetching
  | case4 m o held before n fetched ih =>
    rw [fetched] at fetching
    exact (ih n.fetch_bytes).trans fetching

theorem skipBefore_lockstep (row : Nat) : Lockstep fun m : Merge => m.skipBefore row where
  grows m := m.skipBefore_bytes row ▸ List.prefix_rfl
  abreast {m m'} alike := by
    have grows : ∀ (_ : Unit) (n : Merge), bytes n <+: bytes (n.skipBefore row).2 :=
      fun _ n => n.skipBefore_bytes row ▸ List.prefix_rfl
    have fetching := fetch_lockstep.abreast alike
    rw [skipBefore_eq m', ← pending_alike alike]
    fun_induction skipBefore m row generalizing m' with
    | case1 m held =>
      rw [held]
      exact .along () alike
    | case2 m o held reached =>
      rw [held]
      dsimp only
      rw [if_pos reached]
      exact .along () alike
    | case3 m o held before error n fetched =>
      rw [held]
      dsimp only
      rw [if_neg before]
      rw [fetched] at fetching
      exact fetching.andThen grows fun found _ => by cases found
    | case4 m o held before n fetched ih =>
      rw [held]
      dsimp only
      rw [if_neg before]
      rw [fetched] at fetching
      refine fetching.andThen grows ?_
      intro _ _ n' found later
      cases found
      rw [skipBefore_eq n', ← pending_alike later]
      exact ih later (fetch_lockstep.abreast later)

theorem hit_eq (m : Merge) (row column : Nat) :
    m.hit row column = match m.pending with
      | none => (.ok none, m)
      | some o =>
        if 0 < row && o.hits row column then andThen m.fetch fun _ m => (.ok (some o), m)
        else (.ok none, m) := by
  unfold hit
  rcases m.pending with _ | o
  · rfl
  · dsimp only
    split
    · rcases m.fetch with ⟨error | _, m⟩ <;> rfl
    · rfl

theorem hit_lockstep (row column : Nat) : Lockstep fun m : Merge => m.hit row column := by
  have steps : ∀ pending : Option Overwrite, Lockstep fun m : Merge =>
      match pending with
      | none => (.ok none, m)
      | some o =>
        if 0 < row && o.hits row column then andThen m.fetch fun _ m => (.ok (some o), m)
        else (.ok none, m) := by
    rintro (_ | o)
    · exact .pure none
    · dsimp only
      split
      · exact fetch_lockstep.andThen fun _ => .pure (some o)
      · exact .pure none
  exact (Lockstep.depending pending pending_alike steps).of_eq fun m => m.hit_eq row column

theorem writing_lockstep {f : Writer → Except Error Unit × Writer} (steps : Lockstep f) :
    Lockstep fun m : Merge => ((f m.writer).1, { m with writer := (f m.writer).2 }) := by
  refine steps.within Merge.writer (fun m writer => { m with writer }) (fun _ => rfl)
    (fun _ _ => rfl) ?_ ?_
  · rintro m _ ⟨out, patches, outlasted, -, rfl⟩
    exact ⟨out, outlasted, rfl⟩
  · rintro m _ w _ ⟨-, patches, -, outlasted, rfl⟩ ⟨out, outlasted', rfl⟩
    exact ⟨out, patches, outlasted', outlasted, rfl⟩

theorem count_lockstep (count : Stats → Stats) :
    Lockstep fun m : Merge => (.ok (), { m with stats := count m.stats }) := by
  refine .update (fun _ => rfl) ?_
  rintro m _ ⟨out, patches, outlasted, outlasted', rfl⟩
  exact ⟨out, patches, outlasted, outlasted', rfl⟩

theorem write_lockstep (text : Bytes) (forced : Bool) :
    Lockstep fun m : Merge => m.write text forced :=
  writing_lockstep (Writer.cell_lockstep text forced)

theorem cell_eq (m : Merge) (row column : Nat) (c : Cell) :
    m.cell row column c = andThen (m.hit row column) fun found m =>
      match found with
      | none => m.write c.bytes c.quoted
      | some o => andThen (m.write o.value true) fun _ m =>
          (.ok (), { m with stats.overwritten := m.stats.overwritten + 1 }) := by
  unfold cell
  rcases m.hit row column with ⟨error | _ | o, m⟩
  · rfl
  · rfl
  · dsimp only [andThen]
    rcases m.write o.value true with ⟨error | _, m⟩ <;> rfl

theorem cell_lockstep (row column : Nat) (c : Cell) :
    Lockstep fun m : Merge => m.cell row column c := by
  have counted := count_lockstep fun stats => { stats with overwritten := stats.overwritten + 1 }
  have steps : ∀ found : Option Overwrite, Lockstep fun m : Merge =>
      match found with
      | none => m.write c.bytes c.quoted
      | some o => andThen (m.write o.value true) fun _ m =>
          (.ok (), { m with stats.overwritten := m.stats.overwritten + 1 }) := by
    rintro (_ | o)
    · exact write_lockstep _ _
    · exact (write_lockstep _ _).andThen fun _ => counted
  exact ((hit_lockstep row column).andThen steps).of_eq fun m => m.cell_eq row column c

theorem cells_cons (m : Merge) (row column : Nat) (c : Cell) (rest : List Cell) :
    m.cells row column (c :: rest) =
      andThen (m.cell row column c) fun _ m => m.cells row (column + 1) rest := by
  rw [cells]
  rcases m.cell row column c with ⟨error | _, m⟩ <;> rfl

theorem cells_lockstep (row column : Nat) (cs : List Cell) :
    Lockstep fun m : Merge => m.cells row column cs := by
  induction cs generalizing column with
  | nil => exact .pure ()
  | cons c rest ih =>
    exact ((cell_lockstep row column c).andThen fun _ => ih (column + 1)).of_eq fun m =>
      m.cells_cons row column c rest

theorem skipInData_lockstep (row target : Nat) :
    Lockstep fun m : Merge => m.skipInData row target := by
  unfold skipInData
  split
  · exact .pure ()
  · exact skipBefore_lockstep target

theorem endRow_lockstep : Lockstep fun m : Merge => m.endRow := by
  have counted := count_lockstep fun stats => { stats with rows := stats.rows + 1 }
  refine ((writing_lockstep Writer.endRow_lockstep).andThen fun _ => counted).of_eq fun m => ?_
  unfold endRow
  rcases m.writer.endRow with ⟨error | _, writer⟩ <;> rfl

theorem row_eq (m : Merge) (cs : List Cell) :
    m.row cs = andThen (m.skipInData m.stats.rows m.stats.rows) fun _ a =>
      andThen (a.cells m.stats.rows 0 cs) fun _ b =>
        andThen (b.skipInData m.stats.rows (m.stats.rows + 1)) fun _ c => c.endRow := by
  unfold row
  dsimp only
  rcases m.skipInData m.stats.rows m.stats.rows with ⟨error | _, a⟩
  · rfl
  · dsimp only [andThen]
    rcases a.cells m.stats.rows 0 cs with ⟨error | _, b⟩
    · rfl
    · dsimp only
      rcases b.skipInData m.stats.rows (m.stats.rows + 1) with ⟨error | _, c⟩ <;> rfl

theorem row_lockstep (cs : List Cell) : Lockstep fun m : Merge => m.row cs := by
  have steps : ∀ stats : Stats, Lockstep fun m : Merge =>
      andThen (m.skipInData stats.rows stats.rows) fun _ m =>
        andThen (m.cells stats.rows 0 cs) fun _ m =>
          andThen (m.skipInData stats.rows (stats.rows + 1)) fun _ m => m.endRow :=
    fun stats => (skipInData_lockstep _ _).andThen fun _ => (cells_lockstep _ _ _).andThen fun _ =>
      (skipInData_lockstep _ _).andThen fun _ => endRow_lockstep
  exact (Lockstep.depending stats stats_alike steps).of_eq fun m => m.row_eq cs

theorem feed_cons (row : Row) (rest : List Row) (m : Merge) :
    feed rowHandler (row :: rest) m =
      andThen (m.row row.cells) fun _ m => feed rowHandler rest m := by
  rw [feed, rowHandler]
  rcases m.row row.cells with ⟨error | _, m⟩ <;> rfl

theorem feed_lockstep (rows : List Row) : Lockstep fun m : Merge => feed rowHandler rows m := by
  induction rows with
  | nil => exact .pure ()
  | cons row rest ih =>
    exact ((row_lockstep row.cells).andThen fun _ => ih).of_eq (feed_cons row rest)

end Echo.Merge

end Tabular
