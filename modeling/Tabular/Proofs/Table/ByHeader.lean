import Tabular.Proofs.Csv.FirstRecord
import Tabular.Proofs.Table.Lookahead

/-!
Connecting goes by the header. A parse reads ahead, so much of what stands behind the header may
have been read when the header is handed over. Still none of it has a part in whether the table is
connected, under which columns it is declared and what the host is warned of.
-/
namespace Tabular.Table

open Csv Grammar

/-! ## What a header comes to -/

def headerVerdict (maxColumns : Nat) (header : Record) : Except Error Unit :=
  if maxColumns = 0 then .error (.internal "parser options must be non-zero")
  else ({ maxColumns } : Csv.Options).verdict 1 header

/-- The columns that a connect ends with, or how it fails, what it has told the host, and the count
of blank names that it leaves. -/
def Connected.told (c : Connected) : Except Halt (List String) × Host.Declaration × BlankCounter :=
  (c.result.map State.columns, c.declaration, c.blanks)

def headerTold (header : Record) (maxColumns : Nat) (declaration : Host.Declaration)
    (blanks : BlankCounter) : Except Halt (List String) × Host.Declaration × BlankCounter :=
  match headerVerdict maxColumns header with
  | .error error => (.error (.failed error), declaration, blanks)
  | .ok () =>
    let (columns, blanks) := HeaderColumns.infer header blanks
    (.ok columns.names, {
      schema := some {
        table := "x"
        columns := columns.names.map fun name => { name, type? := some "TEXT" } }
      directOnly := true
      warnings := declaration.warnings ++ (blankPositions header).map blankWarning }, blanks)

/-! ## Reading and declaring it -/

theorem headerOf_ne_nil {front : Bytes} (held : HoldsHeader front) (single : SingleMark front) :
    headerOf front ≠ [] := by
  obtain ⟨rest, goes_on⟩ := reference_append held single
  have filled := records_filled Byte.comma (withoutMark (front ++ []))
  rw [show records _ _ = _ from (goes_on []).2] at filled
  exact filled _ List.mem_cons_self

theorem pull_served {source : Source} {options : Csv.Options} {header : Record}
    (allowed : options.Allowed) (served : (Parser.initial source options).Served header) :
    ∃ s, Session.new source options = .ok s ∧
      ((options.verdict 1 header = .ok () ∧ (s.pull {}).1 = .ok () ∧
          (s.pull {}).2.2.header.head?.bind CachedRow.ownedCells = some header.toArray) ∨
        ∃ error, options.verdict 1 header = .error error ∧ (s.pull {}).1 = .error error) := by
  refine ⟨{ parser := some (Parser.initial source options), options }, ?_, ?_⟩
  · rw [Session.new, Parser.new_eq_initial source allowed]
    rfl
  unfold Session.pull Session.advance Session.stepOnce
  dsimp only
  cases served with
  | row q cells accepted step =>
    rw [step, receive_eq, received_header rfl, ← cells]
    exact Or.inl ⟨cells ▸ accepted, rfl, rfl⟩
  | refused error q refused step =>
    rw [step]
    exact Or.inr ⟨error, refused, rfl⟩

theorem readHeader_of_front {source : Source} {front later : Bytes} (held : HoldsHeader front)
    (single : SingleMark front) (content : source.rest = front ++ later)
    (steady : source.Steady) (maxColumns : Nat) :
    (readHeader source maxColumns).map Prod.fst =
      (headerVerdict maxColumns (headerOf front)).map fun _ => headerOf front := by
  by_cases zero : maxColumns = 0
  · subst zero
    rfl
  have allowed : ({ maxColumns } : Csv.Options).Allowed :=
    ⟨by simp [Options.isUsable, zero], (by decide : 262144 ≤ largestBuffer),
      (by decide : 65536 ≤ largestBuffer)⟩
  have served := Parser.initial_served content steady allowed rfl held single
  obtain ⟨s, made, pulls⟩ := pull_served allowed served
  unfold readHeader headerVerdict
  rw [made, if_neg zero]
  simp only [bind, Except.bind]
  generalize s.pull {} = pulled at pulls ⊢
  obtain ⟨outcome, session, caches⟩ := pulled
  dsimp only at pulls
  rcases pulls with ⟨accepted, rfl, kept⟩ | ⟨error, refused, rfl⟩
  · rw [accepted]
    dsimp only
    rw [kept]
    rfl
  · rw [refused]
    rfl

theorem foldl_warn (positions : List Nat) (declaration : Host.Declaration) :
    positions.foldl (fun d i => d.warn (blankWarning i)) declaration =
      { declaration with
        warnings := declaration.warnings ++ positions.map blankWarning } := by
  induction positions generalizing declaration with
  | nil => simp
  | cons i rest ih =>
    rw [List.foldl_cons, ih, List.map_cons, List.append_cons]
    rfl

theorem declareColumns_eq {header : Record} (filled : header ≠ []) (declaration : Host.Declaration)
    (blanks : BlankCounter) :
    declareColumns header declaration blanks =
      (.ok (HeaderColumns.infer header blanks).1.names, {
        schema := some {
          table := "x"
          columns := (HeaderColumns.infer header blanks).1.names.map fun name =>
            { name, type? := some "TEXT" } }
        directOnly := true
        warnings := declaration.warnings ++ (blankPositions header).map blankWarning },
        (HeaderColumns.infer header blanks).2) := by
  unfold declareColumns Host.Declaration.declare
  dsimp only
  rw [readSchema_infer header filled blanks, foldl_warn]
  rfl

theorem connectTo_told {opened : Disk.Opened} {front later : Bytes} (held : HoldsHeader front)
    (single : SingleMark front) (content : opened.source.rest = front ++ later)
    (steady : opened.source.Steady) (name : String) (params : Params)
    (declaration : Host.Declaration) (blanks : BlankCounter) :
    (connectTo opened name params declaration blanks).told =
      headerTold (headerOf front) params.maxColumns declaration blanks := by
  have read := readHeader_of_front held single content steady params.maxColumns
  have filled := headerOf_ne_nil held single
  generalize headerOf front = header at read filled ⊢
  unfold connectTo headerTold
  rcases found : readHeader opened.source params.maxColumns with error | ⟨_, session, caches⟩ <;>
    rcases verdict : headerVerdict params.maxColumns header with refused | _ <;>
    rw [found, verdict] at read <;> cases read
  · rfl
  · dsimp only
    rw [declareColumns_eq filled]
    rfl

/-- A table is connected by its header. Whatever follows the first record of a source, and however
its bytes arrive, the connect fails in the same way or declares the same columns to the host, for
direct use only, with one warning for each blank cell of the header. Only the header can fail it. -/
theorem connect_goes_by_header {front : Bytes} (held : HoldsHeader front)
    (single : SingleMark front) (later : Bytes) (opened : Disk.Opened)
    (content : opened.source.rest = front ++ later) (steady : opened.source.Steady)
    (params : Params) (declaration : Host.Declaration) (blanks : BlankCounter) :
    let told := headerTold (headerOf front) params.maxColumns declaration blanks
    (∀ name, (connectTo opened name params declaration blanks).told = told) ∧
      ∀ disk arguments, Params.parse (arguments.drop 3) = .ok params →
        openSource disk params.source = .ok opened →
        (connect disk arguments declaration blanks).told = told := by
  have connects := fun name =>
    connectTo_told held single content steady name params declaration blanks
  refine ⟨connects, fun disk arguments parsed opens => ?_⟩
  unfold connect
  rw [parsed]
  dsimp only
  rw [opens]
  exact connects _

/-- Behind the header, which has a blank cell, stands a record that is too wide, and then quotes
that are never closed. -/
theorem connect_goes_by_header_past_bad_rows :
    let arguments := ["csv", "main", "t", "data=a,,b\n1,2,3,4\n\"x", "max_columns=3"]
    ∃ names, names.length = 3 ∧ (connect {} arguments {} 0).told = (.ok names, {
      schema := some {
        table := "x"
        columns := names.map fun name => { name, type? := some "TEXT" } }
      directOnly := true
      warnings := ["Error in column 1: name may not be blank"] }, 1) := by
  intro arguments
  have input : Utf8.encode "a,,b\n1,2,3,4\n\"x" =
      [97, 44, 44, 98, 10] ++ [49, 44, 50, 44, 51, 44, 52, 10, 34, 120] := by
    decide +kernel
  have parsed : Params.parse (arguments.drop 3) =
      .ok { data := some "a,,b\n1,2,3,4\n\"x", maxColumns := 3 } := by
    decide +kernel
  have held : HoldsHeader [97, 44, 44, 98, 10] := by decide +kernel
  have header : headerOf [97, 44, 44, 98, 10] = [⟨[97], false⟩, ⟨[], false⟩, ⟨[98], false⟩] := by
    decide +kernel
  have accepted : headerVerdict 3 [⟨[97], false⟩, ⟨[], false⟩, ⟨[98], false⟩] = .ok () := by
    decide +kernel
  obtain ⟨-, connects⟩ := connect_goes_by_header held (by decide)
    [49, 44, 50, 44, 51, 44, 52, 10, 34, 120]
    { source := .ofBytes (Utf8.encode "a,,b\n1,2,3,4\n\"x") } input (by decide) _ {} 0
  have told := connects {} arguments parsed rfl
  rw [header, headerTold, accepted] at told
  exact ⟨(HeaderColumns.infer [⟨[97], false⟩, ⟨[], false⟩, ⟨[98], false⟩] 0).1.names,
    length_infer_names _ 0, told⟩

end Tabular.Table
