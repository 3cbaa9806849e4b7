import Mathlib.Data.List.Perm.Basic
import Tabular.Proofs.Host.Tables
import Tabular.Proofs.Table.Backing
import Tabular.Proofs.Table.Declaring

/-!
Who may read a table. Of a table of delimited text one cursor is open at a time, from statements of
the application only, whatever its users do and in whatever order. Whoever is refused leaves
everything as it was, and a whole table is read through a cursor that is closed again however that
ends.
-/
namespace Tabular.Host

/-! ## Users of a connection -/

/-- A connection with the tables that were made on it and the cursors that are open. -/
structure World where
  connection : Connection := {}
  handles : List TableHandle := []
  cursors : List CursorRef := []

/-- What the users of a connection do. Tables and cursors are told by their places. -/
inductive Act where
  | register (name : String) (m : Module)
  | construct (moduleName schema table : String) (params : List String)
  | openScan (handle : Nat) (origin : Origin)
  | filter (cursor : Nat)
  | next (cursor : Nat)
  | drop (cursor : Nat)
  | scanAll (handle : Nat) (origin : Origin)
  | writeFile (path content : Bytes)
  | removeFile (path : Bytes)

namespace World

/-- What an act leaves. One that tells no table, or no cursor, does nothing. -/
def after (w : World) : Act → World
  | .register name m => { w with connection := (w.connection.register name m).2 }
  | .construct moduleName schema table params =>
    match w.connection.construct moduleName schema table params with
    | (.ok handle, connection) => { w with connection, handles := w.handles ++ [handle] }
    | (.error _, connection) => { w with connection }
  | .openScan i origin =>
    match w.handles[i]? with
    | none => w
    | some handle =>
      match w.connection.openScan handle origin with
      | (.ok cursor, connection) => { w with connection, cursors := w.cursors ++ [cursor] }
      | (.error _, connection) => { w with connection }
  | .filter k =>
    match w.cursors[k]? with
    | none => w
    | some cursor => { w with connection := (w.connection.filter cursor).2 }
  | .next k =>
    match w.cursors[k]? with
    | none => w
    | some cursor => { w with connection := (w.connection.next cursor).2 }
  | .drop k =>
    match w.cursors[k]? with
    | none => w
    | some cursor =>
      { w with connection := w.connection.closeCursor cursor, cursors := w.cursors.eraseIdx k }
  | .scanAll i origin =>
    match w.handles[i]? with
    | none => w
    | some handle => { w with connection := (w.connection.scanAll handle origin).2 }
  | .writeFile path content => { w with connection := w.connection.writeFile path content }
  | .removeFile path => { w with connection := w.connection.removeFile path }

def run (w : World) (acts : List Act) : World := acts.foldl after w

@[simp] theorem run_cons (w : World) (act : Act) (acts : List Act) :
    w.run (act :: acts) = (w.after act).run acts := rfl

@[simp] theorem run_append (w : World) (acts later : List Act) :
    w.run (acts ++ later) = (w.run acts).run later := List.foldl_append

theorem run_concat (w : World) (acts : List Act) (act : Act) :
    w.run (acts ++ [act]) = (w.run acts).after act := List.foldl_concat ..

/-! ## Runs -/

variable {w : World} {n : Nat}

/-- What is known of the tables of a world, of those who hold them and of the open cursors. -/
structure Sound (w : World) : Prop where
  handles : ∀ handle ∈ w.handles, ∀ n, handle.table = .csv n →
    handle.directOnly = true ∧ ∃ open_, w.connection.label n = some (handle.name, open_)
  single : ∀ n, w.cursors.count (.csv n) ≤ 1
  flag : ∀ n, .csv n ∈ w.cursors ↔ ∃ name, w.connection.label n = some (name, true)

theorem Sound.grow (sound : w.Sound) {d : Connection} (grows : w.connection.GrowsTo d) :
    Sound { w with connection := d } where
  handles handle member n table := by
    obtain ⟨direct, open_, label⟩ := sound.handles handle member n table
    refine ⟨direct, open_, ?_⟩
    rcases grows n with same | ⟨none, -⟩
    · exact same.trans label
    · rw [label] at none
      cases none
  single := sound.single
  flag n := by
    rw [sound.flag n]
    rcases grows n with same | ⟨none, other, new⟩
    · rw [same]
    · rw [none, new]
      exact ⟨fun ⟨_, is⟩ => (by cases is), fun ⟨_, is⟩ => (by cases is)⟩

theorem Sound.construct (sound : w.Sound) (moduleName schema table : String) (params : List String) :
    (w.after (.construct moduleName schema table params)).Sound := by
  obtain ⟨grows, made⟩ := w.connection.construct_inv moduleName schema table params
  unfold after
  dsimp only
  rcases construction : w.connection.construct moduleName schema table params with ⟨halt | handle, d⟩
  · rw [construction] at grows
    exact sound.grow grows
  · rw [construction] at grows made
    have grown := sound.grow grows
    refine { grown with handles := fun other member n table => ?_ }
    rcases List.mem_append.mp member with before | new
    · exact grown.handles other before n table
    · cases List.mem_singleton.mp new
      obtain ⟨direct, label⟩ := made handle n rfl table
      exact ⟨direct, false, label⟩

theorem Sound.get (sound : w.Sound) {handle : TableHandle} (member : handle ∈ w.handles)
    (table : handle.table = .csv n) :
    handle.directOnly = true ∧ ∃ t, w.connection.tables[n]? = some t ∧ t.name = handle.name ∧
      (t.cursorOpen = true ↔ .csv n ∈ w.cursors) := by
  obtain ⟨direct, open_, label⟩ := sound.handles handle member n table
  obtain ⟨t, found, name, flag⟩ := Connection.get_of_label label
  refine ⟨direct, t, found, name, ?_⟩
  rw [sound.flag n, label, flag]
  exact ⟨fun is => ⟨_, by rw [is]⟩, fun ⟨_, is⟩ => congrArg Prod.snd (Option.some.inj is)⟩

theorem Sound.handles_flag (sound : w.Sound) {t : Table.State}
    (found : w.connection.tables[n]? = some t) (open_ : Bool) :
    ∀ handle ∈ w.handles, ∀ m, handle.table = .csv m → handle.directOnly = true ∧
      ∃ flag, (w.connection.modifyTable n fun _ => { t with cursorOpen := open_ }).label m =
        some (handle.name, flag) := by
  intro handle member m table
  obtain ⟨direct, flag, label⟩ := sound.handles handle member m table
  refine ⟨direct, ?_⟩
  rw [Connection.label_modifyTable found]
  split
  · rename_i here
    rw [← here, Connection.label_of_get found] at label
    obtain ⟨name, -⟩ := Prod.mk.inj (Option.some.inj label)
    exact ⟨open_, by rw [← name]⟩
  · exact ⟨flag, label⟩

theorem Sound.opened (sound : w.Sound) {t : Table.State}
    (found : w.connection.tables[n]? = some t) (free : t.cursorOpen = false) :
    Sound { w with
      connection := w.connection.modifyTable n fun _ => { t with cursorOpen := true }
      cursors := w.cursors ++ [.csv n] } where
  handles := sound.handles_flag found true
  single m := by
    show (w.cursors ++ [CursorRef.csv n]).count (.csv m) ≤ 1
    rw [List.count_append, List.count_singleton]
    split
    · rename_i here
      cases eq_of_beq here
      have none : .csv n ∉ w.cursors := by
        rw [sound.flag, Connection.label_of_get found, free]
        exact fun ⟨_, is⟩ => by cases is
      rw [List.count_eq_zero.mpr none]
    · exact sound.single m
  flag m := by
    show .csv m ∈ w.cursors ++ [.csv n] ↔ _
    rw [Connection.label_modifyTable found, List.mem_append, List.mem_singleton]
    split
    · rename_i here
      rw [here]
      exact ⟨fun _ => ⟨_, rfl⟩, fun _ => Or.inr rfl⟩
    · rename_i other
      rw [← sound.flag m]
      exact or_iff_left fun is => other (CursorRef.csv.inj is).symm

theorem Sound.closed (sound : w.Sound) {k : Nat} (held : w.cursors[k]? = some (.csv n)) :
    Sound { w with
      connection := w.connection.closeCursor (.csv n)
      cursors := w.cursors.eraseIdx k } := by
  obtain ⟨bound, is⟩ := List.getElem?_eq_some_iff.mp held
  have taken := List.getElem_cons_eraseIdx_perm bound
  rw [is] at taken
  obtain ⟨name, label⟩ := (sound.flag n).mp (taken.subset List.mem_cons_self)
  obtain ⟨t, found, -, busy⟩ := Connection.get_of_label label
  have counts : ∀ m, w.cursors.count (CursorRef.csv m) =
      (w.cursors.eraseIdx k).count (CursorRef.csv m) + if n = m then 1 else 0 := fun m => by
    rw [← taken.count_eq, List.count_cons]
    by_cases here : n = m
    · rw [if_pos here, here, beq_self_eq_true, if_pos rfl]
    · rw [if_neg here, if_neg (by simpa using here)]
  rw [Connection.closeCursor, Connection.modifyTable_of_get found]
  exact {
    handles := sound.handles_flag found false
    single := fun m => by
      have before := sound.single m
      rw [counts] at before
      exact Nat.le_trans (Nat.le_add_right _ _) before
    flag := fun m => by
      show CursorRef.csv m ∈ w.cursors.eraseIdx k ↔ _
      rw [Connection.label_modifyTable found]
      have before := counts m
      split
      · rename_i here
        -- There was one such cursor at most, which is gone.
        rw [if_pos here] at before
        have few := sound.single m
        constructor
        · intro still
          have positive := List.count_pos_iff.mpr still
          omega
        · rintro ⟨_, is⟩
          cases is
      · rename_i other
        rw [if_neg other, Nat.add_zero] at before
        rw [← sound.flag m, ← List.count_pos_iff, ← List.count_pos_iff, before] }

theorem Sound.act {α : Type} (sound : w.Sound) (cursor : CursorRef)
    (action : Connection.CursorAction (Except Error α)) (keeps : ∀ t : Table.State,
      (action.run t).2.name = t.name ∧ (action.run t).2.cursorOpen = t.cursorOpen) :
    Sound { w with connection := (w.connection.act cursor action).2 } :=
  sound.grow (Connection.growsTo_act _ cursor action keeps)

theorem Sound.others (sound : w.Sound) {cursors : List CursorRef}
    (same : ∀ n, cursors.count (.csv n) = w.cursors.count (.csv n)) : Sound { w with cursors } where
  handles := sound.handles
  single n := by
    show cursors.count (.csv n) ≤ 1
    rw [same]
    exact sound.single n
  flag n := by
    show .csv n ∈ cursors ↔ _
    rw [← sound.flag n, ← List.count_pos_iff, ← List.count_pos_iff, same]

theorem Sound.openScan (sound : w.Sound) (i : Nat) (origin : Origin) :
    (w.after (.openScan i origin)).Sound := by
  unfold World.after
  dsimp only
  split
  · exact sound
  rename_i handle held
  cases table : handle.table with
  | words =>
    rcases w.connection.openScan_words table origin with ⟨error, refused⟩ | ⟨k, d, opened, tables⟩
    · rw [refused]
      exact sound
    · rw [opened]
      refine Sound.others (sound.grow (.of_tables tables)) fun n => ?_
      rw [List.count_append, List.count_singleton]
      rfl
  | csv n =>
    obtain ⟨direct, t, found, -, -⟩ := sound.get (List.mem_of_getElem? held) table
    by_cases use : origin = .direct
    · cases use
      cases busy : t.cursorOpen with
      | true =>
        rw [(Connection.scan_busy table found busy).1]
        exact sound
      | false =>
        simpa [table, Connection.openCursor_free found busy] using sound.opened found busy
    · rw [(Connection.scan_indirect direct use).1]
      exact sound

theorem Sound.scanAll (sound : w.Sound) (i : Nat) (origin : Origin) :
    (w.after (.scanAll i origin)).Sound := by
  unfold World.after
  dsimp only
  split
  · exact sound
  rename_i handle held
  cases table : handle.table with
  | words => exact sound.grow (w.connection.scanAll_words table origin)
  | csv n =>
    obtain ⟨direct, t, found, -, -⟩ := sound.get (List.mem_of_getElem? held) table
    by_cases use : origin = .direct
    · cases use
      cases busy : t.cursorOpen with
      | true =>
        rw [(Connection.scan_busy table found busy).2]
        exact sound
      | false =>
        rw [Connection.scanAll_free table found busy]
        exact sound.grow (Connection.growsTo_modifyTable found (allRows_name _ _) busy.symm)
    · rw [(Connection.scan_indirect direct use).2]
      exact sound

theorem Sound.after (sound : w.Sound) (act : Act) : (w.after act).Sound := by
  cases act with
  | register name m => exact sound.grow (Connection.growsTo_register _ name m)
  | construct moduleName schema table params => exact sound.construct moduleName schema table params
  | openScan i origin => exact sound.openScan i origin
  | filter k =>
    unfold World.after
    dsimp only
    split
    · exact sound
    · exact sound.act _ _ fun t => ⟨filter_name t, filter_cursorOpen t⟩
  | next k =>
    unfold World.after
    dsimp only
    split
    · exact sound
    · exact sound.act _ _ fun t => ⟨next_name t, next_cursorOpen t⟩
  | drop k =>
    unfold World.after
    dsimp only
    split
    · exact sound
    · rename_i cursor held
      cases cursor with
      | csv n => exact sound.closed held
      | words number =>
        refine sound.others fun n => ?_
        obtain ⟨bound, is⟩ := List.getElem?_eq_some_iff.mp held
        rw [← (List.getElem_cons_eraseIdx_perm bound).count_eq, is, List.count_cons]
        rfl
  | scanAll i origin => exact sound.scanAll i origin
  | writeFile path content => exact sound.grow (Connection.growsTo_writeFile _ path content)
  | removeFile path => exact sound.grow (.of_tables rfl)

theorem Sound.run (sound : w.Sound) (acts : List Act) : (w.run acts).Sound := by
  induction acts generalizing w with
  | nil => exact sound
  | cons act rest ih => exact ih (sound.after act)

theorem sound_empty : ({} : World).Sound where
  handles _ none := absurd none List.not_mem_nil
  single n := Nat.zero_le 1
  flag n := ⟨fun none => absurd none List.not_mem_nil, fun ⟨_, is⟩ => by cases is⟩

/-! ### A whole table, act by act -/

def reading (w : World) (n : Nat) (t : Table.State) : World :=
  { w with connection := w.connection.modifyTable n fun _ => t, cursors := w.cursors ++ [.csv n] }

variable {t u : Table.State}

theorem reading_openScan {i : Nat} {handle : TableHandle} (held : w.handles[i]? = some handle)
    (table : handle.table = .csv n) (found : w.connection.tables[n]? = some t)
    (free : t.cursorOpen = false) :
    w.after (.openScan i .direct) = w.reading n { t with cursorOpen := true } := by
  unfold World.after
  dsimp only
  rw [held]
  dsimp only
  rw [Connection.openScan_direct, table, Connection.openCursor_free found free]
  rfl

theorem reading_cursor (w : World) (n : Nat) (t : Table.State) :
    (w.reading n t).cursors[w.cursors.length]? = some (.csv n) :=
  List.getElem?_concat_length

theorem reading_filter (found : w.connection.tables[n]? = some t) :
    (w.reading n u).after (.filter w.cursors.length) = w.reading n u.filter.2 := by
  have there : (w.reading n u).connection.tables[n]? = some u := Connection.modifyTable_get found
  unfold World.after
  dsimp only
  rw [reading_cursor]
  dsimp only
  rw [Connection.filter, Connection.act_csv there]
  unfold reading
  dsimp only
  rw [Connection.modifyTable_modifyTable]
  rfl

theorem reading_next (found : w.connection.tables[n]? = some t) (m : Nat) (u : Table.State) :
    (w.reading n u).run (List.replicate m (.next w.cursors.length)) =
      w.reading n ((fun s : Table.State => s.next.2)^[m] u) := by
  induction m generalizing u with
  | zero => rfl
  | succ m ih =>
    have there : (w.reading n u).connection.tables[n]? = some u := Connection.modifyTable_get found
    have moved : (w.reading n u).after (.next w.cursors.length) = w.reading n u.next.2 := by
      unfold World.after
      dsimp only
      rw [reading_cursor]
      dsimp only
      rw [Connection.next, Connection.act_csv there]
      unfold reading
      dsimp only
      rw [Connection.modifyTable_modifyTable]
      rfl
    rw [List.replicate_succ, Function.iterate_succ_apply, ← ih, ← moved]
    rfl

theorem reading_drop (w : World) (n : Nat) (u : Table.State) :
    (w.reading n u).after (.drop w.cursors.length) =
      { w with connection := w.connection.modifyTable n fun _ => u.closeCursor } := by
  unfold World.after
  dsimp only
  rw [reading_cursor]
  unfold reading
  dsimp only
  rw [Connection.closeCursor, Connection.modifyTable_modifyTable,
    List.eraseIdx_append_of_length_le (Nat.le_refl _), Nat.sub_self, List.eraseIdx_cons_zero,
    List.append_nil]

/-- Reading a whole table is opening a cursor, beginning a scan, moving on for a while and closing the
cursor again. -/
theorem after_scanAll {i : Nat} {handle : TableHandle} (held : w.handles[i]? = some handle)
    (table : handle.table = .csv n) (found : w.connection.tables[n]? = some t)
    (free : t.cursorOpen = false) :
    let k := w.cursors.length
    ∃ m, w.after (.scanAll i .direct) = w.run
      (.openScan i .direct :: .filter k :: (List.replicate m (.next k) ++ [.drop k])) := by
  intro k
  obtain ⟨m, moves⟩ := allRows_moves handle.schema.columns.length { t with cursorOpen := true }
  have opened := reading_openScan held table found free
  have whole : w.after (.scanAll i .direct) = { w with
      connection := w.connection.modifyTable n fun _ => ((fun s : Table.State => s.next.2)^[m]
        (Table.State.filter { t with cursorOpen := true }).2).closeCursor } := by
    unfold World.after
    dsimp only
    rw [held]
    dsimp only
    rw [Connection.scanAll_free table found free, moves]
    rfl
  refine ⟨m, ?_⟩
  calc w.after (.scanAll i .direct)
      = (w.reading n ((fun s : Table.State => s.next.2)^[m]
          (Table.State.filter { t with cursorOpen := true }).2)).after (.drop k) := by
        rw [whole, reading_drop]
    _ = ((w.reading n (Table.State.filter { t with cursorOpen := true }).2).run
          (List.replicate m (.next k))).after (.drop k) := by
        rw [reading_next found]
    _ = w.run (.openScan i .direct :: .filter k :: (List.replicate m (.next k) ++ [.drop k])) := by
        rw [run_cons, run_cons, opened, reading_filter found, run_concat]

end World

/-- Whatever the users of a connection do, for each table of delimited text that was made on it: at
most one cursor is open, and the flag of the table says whether one is. A cursor is opened if none is
open, for direct use, and refused otherwise, as is the reading of the whole table; a refusal leaves
the connection as it was. Reading a whole table leaves no cursor open, and on its way it does what
a run does. -/
theorem runs_admit_one_cursor (acts : List Act) :
    let w := ({} : World).run acts
    ∀ i handle n, w.handles[i]? = some handle → handle.table = .csv n →
      ∃ t, w.connection.tables[n]? = some t ∧
        w.cursors.count (.csv n) ≤ 1 ∧ (t.cursorOpen = true ↔ .csv n ∈ w.cursors) ∧
        ((∃ cursor, (w.connection.openScan handle .direct).1 = .ok cursor) ↔ .csv n ∉ w.cursors) ∧
        (.csv n ∈ w.cursors →
          w.connection.openScan handle .direct =
              (.error (.cursorBusy handle.name), w.connection) ∧
            w.connection.scanAll handle .direct =
              (.error (.cursorBusy handle.name), w.connection)) ∧
        (∀ origin, origin ≠ .direct →
          w.connection.openScan handle origin =
              (.error (.unsafeUse handle.name), w.connection) ∧
            w.connection.scanAll handle origin =
              (.error (.unsafeUse handle.name), w.connection)) ∧
        (.csv n ∉ w.cursors →
          let read := w.after (.scanAll i .direct)
          let k := w.cursors.length
          .csv n ∉ read.cursors ∧
            (∃ u, read.connection.tables[n]? = some u ∧ u.cursorOpen = false) ∧
            ∃ m, read = w.run
              (.openScan i .direct :: .filter k :: (List.replicate m (.next k) ++ [.drop k]))) := by
  intro w i handle n held table
  have sound : w.Sound := World.sound_empty.run acts
  have member := List.mem_of_getElem? held
  obtain ⟨direct, t, found, name, flag⟩ := sound.get member table
  refine ⟨t, found, sound.single n, flag, ⟨fun ⟨cursor, opened⟩ live => ?_, fun none => ?_⟩,
    fun live => ?_, fun origin other => Connection.scan_indirect direct other, fun none => ?_⟩
  · rw [(Connection.scan_busy table found (flag.mpr live)).1] at opened
    cases opened
  · have free : t.cursorOpen = false := Bool.eq_false_iff.mpr fun busy => none (flag.mp busy)
    rw [Connection.openScan_direct, table, Connection.openCursor_free found free]
    exact ⟨_, rfl⟩
  · rw [← name]
    exact Connection.scan_busy table found (flag.mpr live)
  · have free : t.cursorOpen = false := Bool.eq_false_iff.mpr fun busy => none (flag.mp busy)
    intro read k
    have cursors : read.cursors = w.cursors := by
      show (w.after (.scanAll i .direct)).cursors = _
      unfold World.after
      dsimp only
      rw [held]
    have connection : read.connection = (w.connection.scanAll handle .direct).2 := by
      show (w.after (.scanAll i .direct)).connection = _
      unfold World.after
      dsimp only
      rw [held]
    refine ⟨by rw [cursors]; exact none, ?_, World.after_scanAll held table found free⟩
    rw [connection, Connection.scanAll_free table found free]
    exact ⟨_, Connection.modifyTable_get found, rfl⟩

/-- A table is opened and a scan of it begun, which keeps others out until its cursor is closed. -/
theorem runs_admit_one_cursor_in_scan :
    let make : List Act :=
      [.register "csv" .csv, .construct "CSV" "main" "t" ["data=a,b\n1,2\n3"]]
    let begin_ : List Act := [.openScan 0 .direct, .filter 0]
    let w := ({} : World).run (make ++ begin_)
    let v := ({} : World).run ((make ++ begin_) ++ [.drop 0])
    ∃ handle, w.handles[0]? = some handle ∧ v.handles[0]? = some handle ∧
      w.connection.openScan handle .direct = (.error (.cursorBusy handle.name), w.connection) ∧
      w.connection.scanAll handle .direct = (.error (.cursorBusy handle.name), w.connection) ∧
      w.connection.scanAll handle .view = (.error (.unsafeUse handle.name), w.connection) ∧
      (∃ cursor, (v.connection.openScan handle .direct).1 = .ok cursor) ∧
      .csv 0 ∉ (v.after (.scanAll 0 .direct)).cursors := by
  intro make begin_ w v
  let c : Connection := { modules := [("CSV", .csv)] }
  have registered : ({} : World).after (.register "csv" .csv) = { connection := c } := by
    have key : Connection.knownName "csv" = "CSV" := by decide +kernel
    unfold World.after Connection.register
    dsimp only
    rw [key]
    rfl
  have known : c.module? "CSV" = some .csv := by decide +kernel
  have input : Utf8.encode "a,b\n1,2\n3" = [97, 44, 98, 10, 49, 44, 50, 10, 51] := by
    decide +kernel
  have parsed : Table.Params.parse (["CSV", "main", "t", "data=a,b\n1,2\n3"].drop 3) =
      .ok { data := some "a,b\n1,2\n3" } := by
    decide +kernel
  have opens : Table.openSource {} ({ data := some "a,b\n1,2\n3" } : Table.Params).source =
      .ok { source := .ofBytes [97, 44, 98, 10, 49, 44, 50, 10, 51] } := by
    rw [← input]
    rfl
  have read : (Table.readHeader (.ofBytes [97, 44, 98, 10, 49, 44, 50, 10, 51])
      Table.columnsLimit).map Prod.fst = .ok [⟨[97], false⟩, ⟨[98], false⟩] := by
    decide +kernel
  obtain ⟨t, connected, -⟩ := Table.connect_of_header parsed opens read
    ⟨_, Table.declareColumns_ok (List.cons_ne_nil _ _) {} 0⟩
  obtain ⟨-, free, -⟩ := connect_told connected
  obtain ⟨handle, d, made, table, tables⟩ :
      ∃ handle d, c.construct "CSV" "main" "t" ["data=a,b\n1,2\n3"] = (.ok handle, d) ∧
        handle.table = .csv 0 ∧ d.tables = c.tables.push t :=
    Connection.construct_csv known connected
  have found : d.tables[0]? = some t := by
    rw [tables]
    rfl
  let idle : World := { connection := d, handles := [handle] }
  let scanned := (Table.State.filter { t with cursorOpen := true }).2
  have constructed : ({} : World).run make = idle := by
    rw [World.run_cons, registered, World.run_cons]
    unfold World.after
    dsimp only
    rw [made]
    rfl
  have scanning : w = idle.reading 0 scanned := by
    have opened := World.reading_openScan (w := idle) (i := 0) rfl table found free
    have filtered := World.reading_filter (w := idle) (u := { t with cursorOpen := true }) found
    calc w = (({} : World).run make).run begin_ := World.run_append _ _ _
      _ = (idle.after (.openScan 0 .direct)).after (.filter idle.cursors.length) := by
        rw [constructed]
        rfl
      _ = idle.reading 0 scanned := by rw [opened, filtered]
  have closed : v = { idle with
      connection := idle.connection.modifyTable 0 fun _ => scanned.closeCursor } := by
    calc v = w.after (.drop idle.cursors.length) := World.run_concat _ _ _
      _ = _ := by rw [scanning, World.reading_drop]
  have live : .csv 0 ∈ w.cursors := by
    rw [scanning]
    exact List.mem_cons_self
  have none : .csv 0 ∉ v.cursors := by
    rw [closed]
    exact List.not_mem_nil
  have held : w.handles[0]? = some handle := by
    rw [scanning]
    rfl
  have held' : v.handles[0]? = some handle := by
    rw [closed]
    rfl
  obtain ⟨-, -, -, -, -, busy, indirect, -⟩ :=
    runs_admit_one_cursor (make ++ begin_) 0 handle 0 held table
  obtain ⟨-, -, -, -, admits, -, -, whole⟩ :=
    runs_admit_one_cursor ((make ++ begin_) ++ [.drop 0]) 0 handle 0 held' table
  exact ⟨handle, held, held', (busy live).1, (busy live).2,
    (indirect .view Origin.noConfusion).2, admits.mpr none, (whole none).1⟩

end Tabular.Host
