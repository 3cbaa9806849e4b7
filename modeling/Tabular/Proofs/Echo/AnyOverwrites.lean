import Tabular.Proofs.Echo.MergeLockstep
import Tabular.Proofs.Echo.RepeatedOverwrites
import Tabular.Proofs.Patch.AnyOrder

/-!
An echo with overwrites in whatever order. It uses some of them as they come, and once it has been
told that there are no more it does not ask again.
-/
namespace Tabular

namespace Patch.Stream

theorem fetch_spends (s : Stream) {found : Except Error (Option Overwrite)} {t : Stream}
    (fetched : s.fetch = (found, t)) :
    t.fetches = s.fetches + 1 ∧ t.remaining.length ≤ s.remaining.length ∧
      ∀ o, found = .ok (some o) → t.remaining.length + 1 = s.remaining.length := by
  by_cases fails : ∃ detail, s.fault = some (s.fetches + 1, detail)
  · obtain ⟨detail, fault⟩ := fails
    simp only [Stream.fetch, fault, ↓reduceIte, Prod.mk.injEq] at fetched
    obtain ⟨rfl, rfl⟩ := fetched
    exact ⟨rfl, Nat.le_refl _, fun o some => by cases some⟩
  · have goes_on : ∀ number detail, s.fault = some (number, detail) → s.fetches + 1 ≠ number := by
      rintro number detail fault rfl
      exact fails ⟨detail, fault⟩
    rw [Echo.Merge.stream_fetch goes_on] at fetched
    obtain ⟨rfl, rfl⟩ := Prod.mk.inj fetched
    refine ⟨rfl, ?_, fun o some => ?_⟩
    · rw [List.length_tail]
      exact Nat.sub_le _ _
    · obtain ⟨rest, split⟩ := List.head?_eq_some_iff.mp (Except.ok.inj some)
      rw [split, List.tail_cons, List.length_cons]

end Patch.Stream

namespace Echo.Merge

open Csv Patch

/-! ## How often the overwrites are fetched -/

/-- The fetches so far, and one for each overwrite that may still come, are no more than `total`. -/
def Within (total : Nat) (m : Merge) : Prop := m.patches.fetches + m.ahead ≤ total

def Sparing {α : Type} (f : Merge → Except Error α × Merge) : Prop :=
  ∀ total m, Within total m → Within total (f m).2

variable {α β : Type} {f : Merge → Except Error α × Merge} {go : α → Merge → Except Error β × Merge}

theorem Sparing.andThen (first : Sparing f) (second : ∀ a, Sparing (go a)) :
    Sparing fun m => andThen (f m) go := by
  intro total m within
  have kept := first total m within
  dsimp only [Tabular.andThen]
  generalize f m = found at kept ⊢
  rcases found with ⟨error | a, n⟩
  · exact kept
  · exact second a total n kept

theorem Sparing.of_eq {g : Merge → Except Error α × Merge} (steps : Sparing f)
    (same : ∀ m, g m = f m) : Sparing g := by
  rw [funext same]
  exact steps

theorem sparing_of_same {change : Merge → Except Error α × Merge}
    (patches : ∀ m, (change m).2.patches = m.patches)
    (pending : ∀ m, (change m).2.pending = m.pending) : Sparing change := by
  intro total m within
  unfold Within ahead
  rw [patches, pending]
  exact within

theorem fetch_within (m : Merge) :
    Within (m.patches.fetches + m.patches.remaining.length + 1) m.fetch.2 := by
  unfold Within fetch ahead
  rcases fetched : m.patches.fetch with ⟨error | _ | o, rest⟩
  · obtain ⟨spent, left, -⟩ := m.patches.fetch_spends fetched
    show rest.fetches + (rest.remaining.length + 0) ≤ _
    omega
  · obtain ⟨spent, left, -⟩ := m.patches.fetch_spends fetched
    show rest.fetches + (rest.remaining.length + 0) ≤ _
    omega
  · obtain ⟨spent, -, taken⟩ := m.patches.fetch_spends fetched
    have := taken o rfl
    show rest.fetches + (rest.remaining.length + 1) ≤ _
    omega

theorem fetch_spares {total : Nat} {m : Merge} {o : Overwrite} (held : m.pending = some o)
    (within : Within total m) : Within total m.fetch.2 := by
  have fetched := m.fetch_within
  unfold Within ahead at within
  rw [held, Option.isSome_some, if_pos rfl, ← Nat.add_assoc] at within
  exact Nat.le_trans fetched within

theorem skipBefore_sparing (row : Nat) : Sparing fun m : Merge => m.skipBefore row := by
  intro total m within
  dsimp only
  fun_induction skipBefore m row with
  | case1 m held => exact within
  | case2 m o held reached => exact within
  | case3 m o held before error n fetched =>
    have kept := fetch_spares held within
    rw [fetched] at kept
    exact kept
  | case4 m o held before n fetched ih =>
    have kept := fetch_spares held within
    rw [fetched] at kept
    exact ih kept

theorem hit_sparing (row column : Nat) : Sparing fun m : Merge => m.hit row column := by
  intro total m within
  dsimp only
  rw [hit_eq]
  rcases held : m.pending with _ | o
  · exact within
  · have kept := fetch_spares held within
    dsimp only
    split
    · rcases fetched : m.fetch with ⟨error | _, n⟩ <;> rw [fetched] at kept <;> exact kept
    · exact within

theorem write_sparing (text : Bytes) (forced : Bool) :
    Sparing fun m : Merge => m.write text forced :=
  sparing_of_same (fun _ => rfl) fun _ => rfl

theorem cell_sparing (row column : Nat) (c : Cell) :
    Sparing fun m : Merge => m.cell row column c := by
  refine ((hit_sparing row column).andThen fun found => ?_).of_eq fun m => m.cell_eq row column c
  rcases found with _ | o
  · exact write_sparing c.bytes c.quoted
  · exact (write_sparing o.value true).andThen fun _ => sparing_of_same (fun _ => rfl) fun _ => rfl

theorem cells_sparing (row column : Nat) (cs : List Cell) :
    Sparing fun m : Merge => m.cells row column cs := by
  induction cs generalizing column with
  | nil => exact fun _ _ within => within
  | cons c rest ih =>
    exact ((cell_sparing row column c).andThen fun _ => ih (column + 1)).of_eq fun m =>
      m.cells_cons row column c rest

theorem skipInData_sparing (row target : Nat) :
    Sparing fun m : Merge => m.skipInData row target := by
  unfold skipInData
  split
  · exact fun _ _ within => within
  · exact skipBefore_sparing target

theorem endRow_sparing : Sparing fun m : Merge => m.endRow := by
  apply sparing_of_same <;> intro m <;> unfold endRow <;>
    rcases m.writer.endRow with ⟨error | _, writer⟩ <;> rfl

theorem row_sparing (cs : List Cell) : Sparing fun m : Merge => m.row cs := by
  have steps : ∀ number : Nat, Sparing fun m : Merge =>
      Tabular.andThen (m.skipInData number number) fun _ m =>
        Tabular.andThen (m.cells number 0 cs) fun _ m =>
          Tabular.andThen (m.skipInData number (number + 1)) fun _ m => m.endRow :=
    fun number => (skipInData_sparing _ _).andThen fun _ => (cells_sparing _ _ _).andThen fun _ =>
      (skipInData_sparing _ _).andThen fun _ => endRow_sparing
  intro total m within
  dsimp only
  rw [row_eq]
  exact steps m.stats.rows total m within

theorem feed_sparing (rows : List Row) : Sparing fun m : Merge => feed rowHandler rows m := by
  induction rows with
  | nil => exact fun _ _ within => within
  | cons row rest ih =>
    exact ((row_sparing row.cells).andThen fun _ => ih).of_eq (feed_cons row rest)

/-- The first fetch is the only one that no overwrite pays for. -/
theorem echoRows_within (withMark : Bool) (rows : List Row) (out : Output)
    (patches : Patch.Stream) :
    Within (patches.fetches + patches.remaining.length + 1)
      ((unbegun out patches).echoRows withMark rows).2 := by
  have marking : Sparing fun m : Merge => m.mark withMark :=
    sparing_of_same (fun _ => rfl) fun _ => rfl
  have steps := marking.andThen fun _ => feed_sparing rows
  have first : Within (patches.fetches + patches.remaining.length + 1)
      (unbegun out patches).fetch.2 := fetch_within _
  unfold echoRows Tabular.andThen
  generalize (unbegun out patches).fetch = found at first ⊢
  rcases found with ⟨error | _, m⟩
  · exact first
  · exact steps _ m first

@[simp] theorem answer_patches (ending : Except Error Unit) (found : Except Error Unit × Merge) :
    (answer ending found).patches = found.2.patches := by
  rcases found with ⟨error | _, m⟩ <;> rfl

end Echo.Merge

namespace Echo

open Csv Patch

/-- However the overwrites stand, those that are used come in their order and are for different
cells of the data, the other cells stay as they are, and the header keeps its own. Of the fetches,
failed or not, only one finds no overwrite, so that it is the last. -/
theorem echo_uses_some_in_order (source : Source) (options : Options) (rs : List Record)
    (accepts : delivered source options = .ok rs) (patches : Patch.Stream) (sound : Sound patches)
    (out : Output) (withMark : Bool) :
    let run := echo source out patches withMark options
    (∃ used, used.Sublist patches.remaining ∧ Ascending used ∧ (∀ o ∈ used, o.isIn rs = true) ∧
      (edit used rs).head? = rs.head? ∧
      (out.HasRoom (Encoding.table withMark (edit used rs)) → out.flushFailure = none →
        run.result = .ok { rows := rs.length, overwritten := used.length } ∧
        run.out.bytes = out.bytes ++ Encoding.table withMark (edit used rs))) ∧
    run.patches.fetches + run.patches.remaining.length ≤
      patches.fetches + patches.remaining.length + 1 := by
  intro run
  obtain ⟨allowed, rows, handed, rfl⟩ := handsOver_of_delivered accepts
  constructor
  · obtain ⟨used, picked, ascending, present, count, written⟩ :=
      join_picks patches.remaining (rows.map Row.cells)
    refine ⟨used, picked, ascending, present, edit_head? used _, fun room flushes => ?_⟩
    rw [← written] at room
    obtain ⟨rest, same⟩ := echo_joins allowed handed sound room flushes
    rw [written, count] at same
    have ran : run = _ := same
    constructor
    · rw [ran, List.length_map]
      rfl
    · rw [ran]
      exact Output.extended_bytes _ _
  · have within := Merge.echoRows_within withMark rows out patches
    have same : run.patches = ((Merge.unbegun out patches).echoRows withMark rows).2.patches := by
      rw [← Merge.answer_patches (.ok ())]
      exact congrArg Run.patches (echo_of_handsOver allowed handed out patches withMark)
    rw [same]
    unfold Merge.Within Merge.ahead at within
    omega

/-- Of five overwrites that are out of order the first two are used. -/
theorem echo_uses_two_of_five :
    let input : Bytes := [97, 44, 98, 10, 49, 44, 50, 10, 51, 44, 52, 10]
    let rs : List Record := [[⟨[97], false⟩, ⟨[98], false⟩], [⟨[49], false⟩, ⟨[50], false⟩],
      [⟨[51], false⟩, ⟨[52], false⟩]]
    let all : List Overwrite :=
      [⟨1, 1, [120]⟩, ⟨2, 0, [121]⟩, ⟨2, 0, [122]⟩, ⟨1, 0, [65]⟩, ⟨2, 1, [66]⟩]
    let run := echo (Source.ofBytes input) {} (Patch.Stream.ofList all) false {}
    delivered (Source.ofBytes input) {} = .ok rs ∧
      (∃ used, used.Sublist all ∧ Ascending used ∧
        run.result = .ok { rows := 3, overwritten := used.length } ∧
        run.out.bytes = Encoding.table false (edit used rs)) ∧
      run.patches.fetches + run.patches.remaining.length ≤ 6 ∧
      run.out.bytes = [97, 44, 98, 10, 49, 44, 34, 120, 34, 10, 34, 121, 34, 44, 52, 10] := by
  intro input rs all run
  have accepts : delivered (Source.ofBytes input) {} = .ok rs := by decide +kernel
  obtain ⟨⟨used, picked, ascending, -, -, echoed⟩, spent⟩ :=
    echo_uses_some_in_order (Source.ofBytes input) {} rs accepts (Patch.Stream.ofList all)
      (fun number detail fault => by cases fault) {} false
  obtain ⟨result, bytes⟩ := echoed (fun room limit => by cases limit) rfl
  exact ⟨accepts, ⟨used, picked, ascending, result, bytes⟩, spent, by decide +kernel⟩

end Echo

end Tabular
