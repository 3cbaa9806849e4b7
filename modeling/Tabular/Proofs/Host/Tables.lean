import Mathlib.Logic.Function.Iterate
import Tabular.Host.Connection
import Tabular.Proofs.Table.Backing

/-!
What the calls of a connection do to its tables. Each table keeps its name, and the flag that says
whether a cursor is open on it is set by opening one and cleared by closing it, by nothing else.
-/
namespace Tabular.Host

/-! ## The flag of a table -/

namespace Connection

variable {c d : Connection} {n : Nat} {t u : Table.State}

def label (c : Connection) (n : Nat) : Option (String × Bool) :=
  c.tables[n]?.map fun t => (t.name, t.cursorOpen)

/-- From one connection to another tables are only added, without a cursor. -/
def GrowsTo (c d : Connection) : Prop :=
  ∀ n, d.label n = c.label n ∨ c.label n = none ∧ ∃ name, d.label n = some (name, false)

theorem label_of_get (found : c.tables[n]? = some t) : c.label n = some (t.name, t.cursorOpen) := by
  rw [label, found]
  rfl

theorem get_of_label {name : String} {open_ : Bool} (label : c.label n = some (name, open_)) :
    ∃ t, c.tables[n]? = some t ∧ t.name = name ∧ t.cursorOpen = open_ := by
  obtain ⟨t, found, same⟩ := Option.map_eq_some_iff.mp label
  obtain ⟨name, flag⟩ := Prod.mk.inj same
  exact ⟨t, found, name, flag⟩

theorem modifyTable_get (found : c.tables[n]? = some t) :
    (c.modifyTable n fun _ => u).tables[n]? = some u := by
  rw [modifyTable, Array.getElem?_modify, if_pos rfl, found]
  rfl

theorem modifyTable_get_ne {m : Nat} (other : n ≠ m) (f : Table.State → Table.State) :
    (c.modifyTable n f).tables[m]? = c.tables[m]? := by
  rw [modifyTable, Array.getElem?_modify, if_neg other]

@[simp] theorem modifyTable_modifyTable (c : Connection) (n : Nat)
    (f g : Table.State → Table.State) :
    (c.modifyTable n f).modifyTable n g = c.modifyTable n fun t => g (f t) := by
  have same : (c.tables.modify n f).modify n g = c.tables.modify n fun t => g (f t) := by
    apply Array.ext_getElem?
    intro i
    rw [Array.getElem?_modify, Array.getElem?_modify, Array.getElem?_modify]
    split
    · rw [Option.map_map]
      rfl
    · rfl
  unfold modifyTable
  rw [same]

theorem modifyTable_of_get (found : c.tables[n]? = some t) (f : Table.State → Table.State) :
    c.modifyTable n f = c.modifyTable n fun _ => f t := by
  have same : c.tables.modify n f = c.tables.modify n fun _ => f t := by
    apply Array.ext_getElem?
    intro i
    rw [Array.getElem?_modify, Array.getElem?_modify]
    split
    · rename_i here
      rw [← here, found]
      rfl
    · rfl
  unfold modifyTable
  rw [same]

theorem modifyTable_self (found : c.tables[n]? = some t) : (c.modifyTable n fun _ => t) = c := by
  have same : c.tables.modify n id = c.tables := by
    apply Array.ext_getElem?
    intro i
    rw [Array.getElem?_modify, Option.map_id_fun, id, ite_self]
  have back := modifyTable_of_get found id
  rw [modifyTable, same] at back
  exact back.symm

theorem label_modifyTable (found : c.tables[n]? = some t) (m : Nat) :
    (c.modifyTable n fun _ => u).label m =
      if n = m then some (u.name, u.cursorOpen) else c.label m := by
  split
  · rename_i here
    rw [← here, label_of_get (modifyTable_get found)]
  · rename_i other
    rw [label, label, modifyTable_get_ne other]

theorem act_csv {α : Type} (found : c.tables[n]? = some t)
    (action : CursorAction (Except Error α)) :
    c.act (.csv n) action = ((action.run t).1, c.modifyTable n fun _ => (action.run t).2) := by
  unfold act
  dsimp only
  rw [found]

/-! ### What adds tables, and what leaves them their names and flags -/

theorem GrowsTo.of_tables (same : d.tables = c.tables) : c.GrowsTo d := fun n => Or.inl (by
  rw [label, label, same])

theorem growsTo_modifyTable (found : c.tables[n]? = some t) (name : u.name = t.name)
    (open_ : u.cursorOpen = t.cursorOpen) : c.GrowsTo (c.modifyTable n fun _ => u) := by
  intro m
  rw [label_modifyTable found, name, open_]
  split
  · rename_i here
    rw [← here, label_of_get found]
    exact Or.inl rfl
  · exact Or.inl rfl

theorem growsTo_act {α : Type} (c : Connection) (cursor : CursorRef)
    (action : CursorAction (Except Error α))
    (keeps : ∀ t : Table.State,
      (action.run t).2.name = t.name ∧ (action.run t).2.cursorOpen = t.cursorOpen) :
    c.GrowsTo (c.act cursor action).2 := by
  cases cursor with
  | csv n =>
    rcases found : c.tables[n]? with _ | t
    · unfold act
      dsimp only
      rw [found]
      exact .of_tables rfl
    · rw [act_csv found]
      exact growsTo_modifyTable found (keeps t).1 (keeps t).2
  | words k =>
    unfold act
    dsimp only
    split <;> exact .of_tables rfl

theorem growsTo_register (c : Connection) (name : String) (m : Module) :
    c.GrowsTo (c.register name m).2 := by
  unfold register
  split <;> exact .of_tables rfl

theorem growsTo_writeFile (c : Connection) (path content : Bytes) :
    c.GrowsTo (c.writeFile path content) := by
  intro n
  refine Or.inl ?_
  unfold label writeFile
  dsimp only
  rw [Array.getElem?_map, Option.map_map]
  refine congrArg (Option.map · c.tables[n]?) (funext fun t => ?_)
  show (Table.State.name (if _ then _ else _), _) = _
  dsimp only [Function.comp]
  split <;> rfl

theorem growsTo_push (c : Connection) (t : Table.State) (free : t.cursorOpen = false)
    (tables : d.tables = c.tables.push t) : c.GrowsTo d ∧ d.label c.tables.size = some (t.name, false) := by
  refine ⟨fun m => ?_, ?_⟩
  · rw [label, label, tables, Array.getElem?_push]
    split
    · rename_i last
      rw [last, Array.getElem?_size, Option.map_some, free]
      exact Or.inr ⟨rfl, _, rfl⟩
    · exact Or.inl rfl
  · rw [label, tables, Array.getElem?_push_size, Option.map_some, free]

end Connection

theorem declareColumns_inv {header : List Cell} {declaration told : Declaration}
    {blanks counted : Table.BlankCounter} {columns : List String}
    (declared : Table.declareColumns header declaration blanks = (.ok columns, told, counted)) :
    told.directOnly = true ∧ ∃ schema, told.schema = some schema := by
  unfold Table.declareColumns Declaration.declare at declared
  dsimp only at declared
  split at declared
  · cases declared
  · rename_i accepted
    split at accepted
    · cases accepted
    · cases accepted
      cases declared
      exact ⟨rfl, _, rfl⟩

/-- A table that was connected has the name it was given, no cursor, a schema, and direct use only. -/
theorem connect_told {disk : Disk} {arguments : List String} {declaration : Declaration}
    {blanks : Table.BlankCounter} {t : Table.State}
    (connected : (Table.connect disk arguments declaration blanks).result = .ok t) :
    t.name = arguments[2]?.getD "x" ∧ t.cursorOpen = false ∧
      (Table.connect disk arguments declaration blanks).declaration.directOnly = true ∧
      ∃ schema, (Table.connect disk arguments declaration blanks).declaration.schema = some schema := by
  obtain ⟨opened, -, same⟩ := Table.connect_inv connected
  rw [same] at connected ⊢
  obtain ⟨name, -, free, header, -, blanks', declared⟩ := Table.connectTo_inv connected
  exact ⟨name, free, declareColumns_inv declared⟩

namespace Connection

variable {c d : Connection} {n : Nat} {t u : Table.State}

theorem connectModule_inv (c : Connection) (m : Module) (moduleName schema table : String)
    (params : List String) :
    let joined := c.connectModule m (moduleName :: schema :: table :: params)
    c.GrowsTo joined.connection ∧ ∀ n, joined.result = .ok (.csv n) →
      n = c.tables.size ∧ joined.declaration.directOnly = true ∧
        joined.connection.label n = some (table, false) := by
  intro joined
  cases m with
  | words =>
    have same : joined.connection = c ∧ ∀ n, joined.result ≠ .ok (.csv n) := by
      show (c.connectWords _).connection = c ∧ ∀ n, (c.connectWords _).result ≠ _
      unfold connectWords
      split
      · exact ⟨rfl, fun n is => by cases is⟩
      · exact ⟨rfl, fun n is => by cases is⟩
    exact ⟨.of_tables (by rw [same.1]), fun n is => absurd is (same.2 n)⟩
  | csv =>
    let connected := Table.connect c.disk (moduleName :: schema :: table :: params) {} c.blanks
    show c.GrowsTo (c.connectCsv _).connection ∧ ∀ n, (c.connectCsv _).result = _ → _ = _ ∧
      (c.connectCsv _).declaration.directOnly = true ∧ (c.connectCsv _).connection.label n = _
    unfold connectCsv
    dsimp only
    rcases result : connected.result with halt | t
    · exact ⟨.of_tables rfl, fun n is => by cases is⟩
    · obtain ⟨name, free, direct, -⟩ := connect_told result
      obtain ⟨grows, label⟩ := growsTo_push (d := { c with
        blanks := connected.blanks, tables := c.tables.push t }) c t free rfl
      refine ⟨grows, ?_⟩
      rintro n ⟨rfl⟩
      exact ⟨rfl, direct, by rw [label, name]; rfl⟩

theorem GrowsTo.trans {e : Connection} (first : c.GrowsTo d) (second : d.GrowsTo e) : c.GrowsTo e := by
  intro n
  rcases second n with same | ⟨none, name, new⟩
  · rw [same]
    exact first n
  · rcases first n with same | ⟨-, other, some⟩
    · exact Or.inr ⟨same ▸ none, name, new⟩
    · rw [some] at none
      cases none

theorem growsTo_disconnect (c : Connection) (ref : TableRef) : c.GrowsTo (c.disconnect ref) := by
  cases ref with
  | words => exact .of_tables rfl
  | csv n =>
    intro m
    refine Or.inl ?_
    unfold label disconnect modifyTable
    dsimp only
    rw [Array.getElem?_modify]
    split
    · rw [Option.map_map]
      rfl
    · rfl

theorem construct_inv (c : Connection) (moduleName schema table : String) (params : List String) :
    c.GrowsTo (c.construct moduleName schema table params).2 ∧
      ∀ handle n, (c.construct moduleName schema table params).1 = .ok handle →
        handle.table = .csv n → handle.directOnly = true ∧
          (c.construct moduleName schema table params).2.label n = some (handle.name, false) := by
  unfold construct
  split
  · exact ⟨.of_tables rfl, fun handle n is => by cases is⟩
  · rename_i m known
    obtain ⟨grows, made⟩ := c.connectModule_inv m moduleName schema table params
    rcases joined : c.connectModule m (moduleName :: schema :: table :: params) with
      ⟨result, declaration, d⟩
    rw [joined] at grows made
    dsimp only at grows made ⊢
    cases result with
    | error halt => exact ⟨grows, fun handle n is => by cases is⟩
    | ok ref =>
      dsimp only
      split
      · exact ⟨grows.trans (growsTo_disconnect _ _), fun handle n is => by cases is⟩
      · refine ⟨grows, ?_⟩
        rintro handle n ⟨rfl⟩ table
        obtain ⟨-, direct, label⟩ := made n (congrArg Except.ok table)
        exact ⟨direct, label⟩

theorem construct_csv {moduleName schema table : String} {params : List String}
    (known : c.module? moduleName = some .csv)
    (connected : (Table.connect c.disk (moduleName :: schema :: table :: params) {} c.blanks).result =
      .ok t) :
    ∃ handle d, c.construct moduleName schema table params = (.ok handle, d) ∧
      handle.table = .csv c.tables.size ∧ d.tables = c.tables.push t := by
  obtain ⟨-, -, -, declared, told⟩ := connect_told connected
  unfold construct
  rw [known]
  dsimp only
  unfold connectModule connectCsv
  dsimp only
  rw [connected]
  dsimp only
  rw [told]
  exact ⟨_, _, rfl, rfl, rfl⟩

/-! ## Cursors -/

theorem openCursor_busy (found : c.tables[n]? = some t) (busy : t.cursorOpen = true) :
    c.openCursor (.csv n) = (.error (.cursorBusy t.name), c) := by
  unfold openCursor
  dsimp only
  rw [found]
  dsimp only
  rw [Table.State.openCursor, if_pos busy]
  dsimp only
  rw [modifyTable_self found]
  rfl

theorem openCursor_free (found : c.tables[n]? = some t) (free : t.cursorOpen = false) :
    c.openCursor (.csv n) =
      (.ok (.csv n), c.modifyTable n fun _ => { t with cursorOpen := true }) := by
  unfold openCursor
  dsimp only
  rw [found]
  dsimp only
  rw [Table.State.openCursor, free, if_neg Bool.false_ne_true]
  rfl

end Connection

theorem rowsFrom_moves {σ : Type} [Cursor σ] (width : Nat) (before : List ScannedRow) (limit : Nat)
    (cursor : σ) :
    ∃ m, (rowsFrom width before limit cursor).2 = (fun s : σ => (Cursor.next s).2)^[m] cursor := by
  induction limit generalizing before cursor with
  | zero => exact ⟨0, rfl⟩
  | succ limit ih =>
    unfold rowsFrom
    split
    · exact ⟨0, rfl⟩
    split
    · exact ⟨0, rfl⟩
    rename_i row _
    rcases moved : Cursor.next cursor with ⟨error | _, onward⟩
    · exact ⟨1, (congrArg Prod.snd moved).symm⟩
    · obtain ⟨m, later⟩ := ih (row :: before) onward
      refine ⟨m + 1, later.trans ?_⟩
      rw [Function.iterate_succ_apply, moved]

theorem allRows_moves {σ : Type} [Cursor σ] (width : Nat) (cursor : σ) :
    ∃ m, (allRows width cursor).2 = (fun s : σ => (Cursor.next s).2)^[m] (Cursor.filter cursor).2 := by
  unfold allRows
  rcases filtered : Cursor.filter cursor with ⟨error | _, onward⟩
  · exact ⟨0, rfl⟩
  · exact rowsFrom_moves width [] _ onward

/-! A scan leaves the name and the flag of a table alone. -/

@[simp] theorem filter_name (t : Table.State) : t.filter.2.name = t.name := by
  unfold Table.State.filter
  dsimp only
  split <;> rfl

@[simp] theorem filter_cursorOpen (t : Table.State) : t.filter.2.cursorOpen = t.cursorOpen := by
  unfold Table.State.filter
  dsimp only
  split <;> rfl

@[simp] theorem next_name (t : Table.State) : t.next.2.name = t.name := by
  unfold Table.State.next
  dsimp only
  split <;> rfl

@[simp] theorem next_cursorOpen (t : Table.State) : t.next.2.cursorOpen = t.cursorOpen := by
  unfold Table.State.next
  dsimp only
  split <;> rfl

@[simp] theorem nexts_name (m : Nat) (t : Table.State) :
    ((fun s : Table.State => s.next.2)^[m] t).name = t.name := by
  induction m generalizing t with
  | zero => rfl
  | succ m ih => simp [ih]

@[simp] theorem nexts_cursorOpen (m : Nat) (t : Table.State) :
    ((fun s : Table.State => s.next.2)^[m] t).cursorOpen = t.cursorOpen := by
  induction m generalizing t with
  | zero => rfl
  | succ m ih => simp [ih]

@[simp] theorem allRows_name (width : Nat) (t : Table.State) :
    (allRows width t).2.name = t.name := by
  obtain ⟨m, moves⟩ := allRows_moves width t
  rw [moves]
  exact (nexts_name m t.filter.2).trans (filter_name t)

@[simp] theorem allRows_cursorOpen (width : Nat) (t : Table.State) :
    (allRows width t).2.cursorOpen = t.cursorOpen := by
  obtain ⟨m, moves⟩ := allRows_moves width t
  rw [moves]
  exact (nexts_cursorOpen m t.filter.2).trans (filter_cursorOpen t)

namespace Connection

variable {c d : Connection} {n : Nat} {t u : Table.State} {handle : TableHandle} {origin : Origin}

theorem scan_indirect (direct : handle.directOnly = true) (other : origin ≠ .direct) :
    c.openScan handle origin = (.error (.unsafeUse handle.name), c) ∧
      c.scanAll handle origin = (.error (.unsafeUse handle.name), c) := by
  have refused : c.openScan handle origin = (.error (.unsafeUse handle.name), c) := by
    rw [openScan, direct, Bool.true_and, if_pos (bne_iff_ne.mpr other)]
  refine ⟨refused, ?_⟩
  rw [scanAll, refused]

@[simp] theorem openScan_direct (c : Connection) (handle : TableHandle) :
    c.openScan handle .direct = c.openCursor handle.table := by
  have direct : (handle.directOnly && Origin.direct != Origin.direct) = false := by
    cases handle.directOnly <;> rfl
  rw [openScan, direct, if_neg Bool.false_ne_true]

theorem scan_busy (table : handle.table = .csv n) (found : c.tables[n]? = some t)
    (busy : t.cursorOpen = true) :
    c.openScan handle .direct = (.error (.cursorBusy t.name), c) ∧
      c.scanAll handle .direct = (.error (.cursorBusy t.name), c) := by
  have refused : c.openScan handle .direct = (.error (.cursorBusy t.name), c) := by
    simp [table, openCursor_busy found busy]
  refine ⟨refused, ?_⟩
  rw [scanAll, refused]

/-- A whole table is read through a cursor of its own. -/
theorem scanAll_free (table : handle.table = .csv n) (found : c.tables[n]? = some t)
    (free : t.cursorOpen = false) :
    c.scanAll handle .direct =
      ((allRows handle.schema.columns.length { t with cursorOpen := true }).1, c.modifyTable n fun _ =>
        (allRows handle.schema.columns.length { t with cursorOpen := true }).2.closeCursor) := by
  have opened : (c.modifyTable n fun _ => { t with cursorOpen := true }).tables[n]? =
      some { t with cursorOpen := true } := modifyTable_get found
  rw [scanAll, openScan_direct, table, openCursor_free found free]
  dsimp only
  rw [act_csv opened, modifyTable_modifyTable]
  dsimp only
  simp [closeCursor]

theorem openScan_words (c : Connection) (words : handle.table = .words) (origin : Origin) :
    (∃ error, c.openScan handle origin = (.error error, c)) ∨
      ∃ k d, c.openScan handle origin = (.ok (.words k), d) ∧ d.tables = c.tables := by
  unfold openScan
  split
  · exact Or.inl ⟨_, rfl⟩
  · rw [words]
    exact Or.inr ⟨_, _, rfl, rfl⟩

theorem scanAll_words (c : Connection) (words : handle.table = .words) (origin : Origin) :
    c.GrowsTo (c.scanAll handle origin).2 := by
  unfold scanAll
  rcases c.openScan_words words origin with ⟨error, refused⟩ | ⟨k, d, opened, tables⟩
  · rw [refused]
    exact .of_tables rfl
  · rw [opened]
    have opened' : c.GrowsTo d := .of_tables tables
    exact opened'.trans (growsTo_act d (.words k) _ fun t => by simp)

end Connection

end Tabular.Host
