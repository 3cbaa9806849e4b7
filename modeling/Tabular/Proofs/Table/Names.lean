import Mathlib.Data.List.Forall2
import Mathlib.Data.List.Nodup
import Mathlib.Data.List.Perm.Subperm
import Tabular.Table.Header

/-!
The names of columns. There is a name for each header cell, in order. It is the name of the cell
or that name with a number behind it, and no two of them are equal but for the case of ASCII
letters.
-/
namespace Tabular.Table

/-! ## Numbers behind a name -/

theorem toLower_of_isDigit {c : Char} (digit : c.isDigit = true) : c.toLower = c := by
  have below : ¬ (c.val ≥ 'A'.val ∧ c.val ≤ 'Z'.val) := by
    simp only [Char.isDigit, Bool.and_eq_true, decide_eq_true_eq] at digit
    rintro ⟨capital, -⟩
    exact absurd (UInt32.le_trans capital digit.2) (by decide)
  exact dif_neg below

@[simp] theorem lower_numbered (name : String) (number : Nat) :
    Text.lower (numbered name number) = numbered (Text.lower name) number := by
  have digits : (toString number).toList.map Char.toLower = (toString number).toList := by
    rw [Nat.toString_eq_ofList_toDigits, String.toList_ofList]
    refine (List.map_congr_left fun c member => ?_).trans (List.map_id _)
    exact toLower_of_isDigit (Nat.isDigit_of_mem_toDigits (by decide) (by decide) member)
  apply String.toList_inj.mp
  show (Text.lower (name ++ "_" ++ toString number)).toList =
    (Text.lower name ++ "_" ++ toString number).toList
  simp only [Text.lower, String.toList_map, String.toList_append, List.map_append, digits]
  rfl

theorem numbered_injective (name : String) {first second : Nat}
    (same : numbered name first = numbered name second) : first = second := by
  have text : name ++ "_" ++ toString first = name ++ "_" ++ toString second := same
  have digits := congrArg String.toList text
  simp only [String.toList_append, Nat.toString_eq_ofList_toDigits, String.toList_ofList,
    List.append_cancel_left_eq] at digits
  calc
    first = Nat.ofDigitChars 10 (Nat.toDigits 10 first) 0 := Nat.ofDigitChars_ten_toDigits.symm
    _ = Nat.ofDigitChars 10 (Nat.toDigits 10 second) 0 := by rw [digits]
    _ = second := Nat.ofDigitChars_ten_toDigits

theorem freeNumber_bounds (taken : Std.HashSet String) (name : String) (tries number : Nat) :
    number ≤ freeNumber taken name tries number ∧
      freeNumber taken name tries number ≤ number + tries := by
  induction tries generalizing number with
  | zero => exact ⟨Nat.le_refl _, Nat.le_refl _⟩
  | succ tries ih =>
    have next := ih (number + 1)
    unfold freeNumber
    split <;> omega

variable {taken : Std.HashSet String} {name : String}

theorem freeNumber_free (tries number : Nat)
    (early : freeNumber taken name tries number < number + tries) :
    taken.contains (Text.lower (numbered name (freeNumber taken name tries number))) = false := by
  induction tries generalizing number with
  | zero => exact absurd early (Nat.lt_irrefl _)
  | succ tries ih =>
    unfold freeNumber at early ⊢
    split
    · rename_i used
      rw [if_pos used] at early
      exact ih (number + 1) (by omega)
    · rename_i free
      exact Bool.eq_false_iff.mpr free

theorem freeNumber_least (tries number : Nat) {k : Nat} (start : number ≤ k)
    (before : k < freeNumber taken name tries number) :
    taken.contains (Text.lower (numbered name k)) = true := by
  induction tries generalizing number with
  | zero => exact absurd before (Nat.not_lt_of_le start)
  | succ tries ih =>
    unfold freeNumber at before
    split at before
    · rename_i used
      rcases Nat.eq_or_lt_of_le start with rfl | later
      · exact used
      · exact ih (number + 1) later before
    · exact absurd before (Nat.not_lt_of_le start)

/-- As many numbers as there are names taken cannot all be in use together with the next one. -/
theorem freeNumber_new (number : Nat) :
    taken.contains
      (Text.lower (numbered name (freeNumber taken name taken.size number))) = false := by
  by_contra used
  rw [Bool.not_eq_false] at used
  have last : freeNumber taken name taken.size number = number + taken.size := by
    have bounds := freeNumber_bounds taken name taken.size number
    have late : ¬ freeNumber taken name taken.size number < number + taken.size := fun early =>
      absurd used (Bool.eq_false_iff.mp (freeNumber_free taken.size number early))
    omega
  have all : ∀ k ∈ List.range' number (taken.size + 1),
      Text.lower (numbered name k) ∈ taken.toList := by
    intro k member
    have range := List.mem_range'_1.mp member
    rw [Std.HashSet.mem_toList, Std.HashSet.mem_iff_contains]
    rcases Nat.lt_or_ge k (number + taken.size) with before | after
    · exact freeNumber_least taken.size number range.1 (last ▸ before)
    · rw [show k = freeNumber taken name taken.size number by omega]
      exact used
  have distinct : ((List.range' number (taken.size + 1)).map fun k =>
      Text.lower (numbered name k)).Nodup := by
    refine List.Nodup.map ?_ List.nodup_range'
    intro first second same
    simp only [lower_numbered] at same
    exact numbered_injective _ same
  have within : ((List.range' number (taken.size + 1)).map fun k =>
      Text.lower (numbered name k)) ⊆ taken.toList := by
    intro text member
    obtain ⟨k, among, rfl⟩ := List.mem_map.mp member
    exact all k among
  have few := (List.subperm_of_subset distinct within).length_le
  rw [List.length_map, List.length_range', Std.HashSet.length_toList] at few
  omega

/-! ## Telling names apart -/

inductive Renamed (raw : String) : String → Prop where
  | kept : Renamed raw raw
  | numbered (number : Nat) (many : 2 ≤ number) : Renamed raw (numbered raw number)

theorem freeName_renamed : Renamed name (freeName taken name) := by
  unfold freeName
  split
  · exact .numbered _ (freeNumber_bounds taken name taken.size 2).1
  · exact .kept

theorem freeName_new : taken.contains (Text.lower (freeName taken name)) = false := by
  unfold freeName
  split
  · exact freeNumber_new 2
  · rename_i free
    exact Bool.eq_false_iff.mpr free

theorem dedupeFrom_eq (taken : Std.HashSet String) (before names : List String) :
    dedupeFrom taken before names = before.reverse ++ dedupeFrom taken [] names := by
  induction names generalizing taken before with
  | nil => rw [dedupeFrom, dedupeFrom, List.reverse_nil, List.append_nil]
  | cons name rest ih =>
    rw [dedupeFrom, dedupeFrom, ih, ih _ [_], List.reverse_cons, List.append_assoc]
    rfl

theorem dedupeFrom_cons (taken : Std.HashSet String) (name : String) (rest : List String) :
    dedupeFrom taken [] (name :: rest) = freeName taken name ::
      dedupeFrom (taken.insert (Text.lower (freeName taken name))) [] rest := by
  rw [dedupeFrom, dedupeFrom_eq]
  rfl

theorem dedupeFrom_renamed (taken : Std.HashSet String) (names : List String) :
    List.Forall₂ Renamed names (dedupeFrom taken [] names) := by
  induction names generalizing taken with
  | nil => exact .nil
  | cons name rest ih =>
    rw [dedupeFrom_cons]
    exact .cons freeName_renamed (ih _)

theorem dedupeFrom_distinct (taken : Std.HashSet String) (names : List String) :
    (∀ name ∈ dedupeFrom taken [] names, taken.contains (Text.lower name) = false) ∧
      ((dedupeFrom taken [] names).map Text.lower).Nodup := by
  induction names generalizing taken with
  | nil => exact ⟨fun _ none => absurd none List.not_mem_nil, List.nodup_nil⟩
  | cons name rest ih =>
    obtain ⟨apart, distinct⟩ := ih (taken.insert (Text.lower (freeName taken name)))
    simp only [Std.HashSet.contains_insert, Bool.or_eq_false_iff, beq_eq_false_iff_ne] at apart
    rw [dedupeFrom_cons]
    refine ⟨?_, ?_⟩
    · intro other member
      rcases List.mem_cons.mp member with rfl | member
      · exact freeName_new
      · exact (apart other member).2
    · rw [List.map_cons, List.nodup_cons]
      refine ⟨?_, distinct⟩
      intro repeated
      obtain ⟨other, member, same⟩ := List.mem_map.mp repeated
      exact (apart other member).1 same.symm

/-! ## Names of cells -/

/-- How many of some cells are blank, as the counter of generated names counts them. -/
def blanks (cells : List Cell) : BlankCounter := .ofNat (cells.countP (·.bytes.isEmpty))

theorem cellNamesInto_eq (before : List String) (cells : List Cell) (count : BlankCounter) :
    (cellNamesInto before cells count).1 = before.reverse ++ (cellNames cells count).1 := by
  unfold cellNames
  induction cells generalizing before count with
  | nil => rw [cellNamesInto, cellNamesInto, List.reverse_nil, List.append_nil]
  | cons cell rest ih =>
    rw [cellNamesInto, cellNamesInto, ih, ih [_], List.reverse_cons, List.append_assoc]
    rfl

theorem cellNames_cons (cell : Cell) (rest : List Cell) (count : BlankCounter) :
    (cellNames (cell :: rest) count).1 =
      (cellName cell count).1 :: (cellNames rest (cellName cell count).2).1 := by
  rw [cellNames, cellNamesInto, cellNamesInto_eq]
  rfl

@[simp] theorem cellName_count (cell : Cell) (count : BlankCounter) :
    (cellName cell count).2 = count + blanks [cell] := by
  unfold cellName blanks
  rw [List.countP_singleton]
  split
  · rfl
  · exact (UInt32.add_zero count).symm

theorem blanks_cons (cell : Cell) (cells : List Cell) :
    blanks (cell :: cells) = blanks [cell] + blanks cells := by
  unfold blanks
  rw [← UInt32.ofNat_add, ← List.countP_append]
  rfl

theorem cellNames_get (cells : List Cell) (count : BlankCounter) (i : Nat) :
    (cellNames cells count).1[i]? =
      cells[i]?.map fun cell => (cellName cell (count + blanks (cells.take i))).1 := by
  induction cells generalizing count i with
  | nil => rfl
  | cons cell rest ih =>
    rw [cellNames_cons]
    cases i with
    | zero =>
      rw [List.getElem?_cons_zero, List.getElem?_cons_zero, List.take_zero, Option.map_some]
      exact congrArg (fun n => some (cellName cell n).1) (UInt32.add_zero count).symm
    | succ i =>
      rw [List.getElem?_cons_succ, List.getElem?_cons_succ, ih, List.take_succ_cons, blanks_cons,
        cellName_count, UInt32.add_assoc]

@[simp] theorem length_cellNames (cells : List Cell) (count : BlankCounter) :
    (cellNames cells count).1.length = cells.length := by
  induction cells generalizing count with
  | nil => rfl
  | cons cell rest ih => rw [cellNames_cons, List.length_cons, List.length_cons, ih]

theorem infer_names_get {cells : List Cell} {i : Nat} {cell : Cell} (count : BlankCounter)
    (present : cells[i]? = some cell) :
    ∃ name, (HeaderColumns.infer cells count).1.names[i]? = some name ∧
      Renamed (cellName cell (count + blanks (cells.take i))).1 name := by
  have raw := cellNames_get cells count i
  rw [present, Option.map_some] at raw
  obtain ⟨inside, raw⟩ := List.getElem?_eq_some_iff.mp raw
  have renamed := dedupeFrom_renamed {} (cellNames cells count).1
  have reached := renamed.length_eq ▸ inside
  refine ⟨(dedupe (cellNames cells count).1)[i], List.getElem?_eq_getElem reached, ?_⟩
  rw [← raw]
  exact renamed.get inside reached

@[simp] theorem length_infer_names (cells : List Cell) (count : BlankCounter) :
    (HeaderColumns.infer cells count).1.names.length = cells.length :=
  (dedupeFrom_renamed {} (cellNames cells count).1).length_eq.symm.trans (length_cellNames cells count)

theorem mem_blankPositions (cells : List Cell) (i : Nat) :
    i ∈ blankPositions cells ↔ ∃ cell, cells[i]? = some cell ∧ cell.bytes = [] := by
  simp only [blankPositions, List.mem_map, List.mem_filter, List.isEmpty_iff, Prod.exists,
    List.mk_mem_zipIdx_iff_getElem?, exists_eq_right]

theorem blankPositions_ascending (cells : List Cell) :
    (blankPositions cells).Pairwise (· < ·) := by
  have ascending : (cells.zipIdx.map Prod.snd).Pairwise (· < ·) := by
    rw [List.zipIdx_map_snd]
    exact List.pairwise_lt_range'
  exact ascending.sublist (List.filter_sublist.map Prod.snd)

end Tabular.Table
