import Mathlib.Order.Bounds.Defs
import Tabular.Proofs.Table.Names

/-!
How repeated names are told apart. A name changes only if an earlier column has it, and then by the
least number that makes it new among the earlier columns. Names that are apart already are left alone.
-/
namespace Tabular.Table

/-- One of some columns has a name, but for the case of ASCII letters. -/
def Takes (columns : List String) (name : String) : Prop :=
  ∃ other ∈ columns, Text.lower other = Text.lower name

/-- A set knows the names that some columns take, and has no more members than there are columns. -/
structure Covers (taken : Std.HashSet String) (columns : List String) : Prop where
  contains : ∀ name, taken.contains (Text.lower name) = true ↔ Takes columns name
  size : taken.size ≤ columns.length

variable {taken : Std.HashSet String} {columns : List String} {name : String}

theorem covers_empty : Covers {} [] where
  contains name := by
    rw [Std.HashSet.contains_empty]
    exact ⟨Bool.noConfusion, fun ⟨_, member, _⟩ => absurd member List.not_mem_nil⟩
  size := Nat.le_of_eq Std.HashSet.size_empty

theorem takes_concat (columns : List String) (last name : String) :
    Takes (columns ++ [last]) name ↔ Takes columns name ∨ Text.lower last = Text.lower name := by
  unfold Takes
  simp only [List.mem_append, List.mem_singleton]
  constructor
  · rintro ⟨other, before | rfl, same⟩
    · exact Or.inl ⟨other, before, same⟩
    · exact Or.inr same
  · rintro (⟨other, before, same⟩ | same)
    · exact ⟨other, Or.inl before, same⟩
    · exact ⟨last, Or.inr rfl, same⟩

theorem Covers.insert (covers : Covers taken columns) (last : String) :
    Covers (taken.insert (Text.lower last)) (columns ++ [last]) where
  contains name := by
    rw [Std.HashSet.contains_insert, Bool.or_eq_true, beq_iff_eq, covers.contains, takes_concat]
    exact or_comm
  size := by
    have grown := Std.HashSet.size_insert_le (m := taken) (k := Text.lower last)
    have size := covers.size
    rw [List.length_append, List.length_singleton]
    omega

theorem Covers.free (covers : Covers taken columns) (name : String) :
    taken.contains (Text.lower name) = false ↔ ¬ Takes columns name := by
  rw [← covers.contains, Bool.not_eq_true]

/-! ## One name -/

theorem numbered_ne (name : String) (number : Nat) : numbered name number ≠ name := by
  intro same
  have text : name ++ "_" ++ toString number = name := same
  have lengths := congrArg String.length text
  rw [String.length_append, String.length_append, show "_".length = 1 from rfl] at lengths
  omega

theorem Covers.freeName_eq_iff (covers : Covers taken columns) (name : String) :
    freeName taken name = name ↔ ¬ Takes columns name := by
  rw [← covers.contains]
  unfold freeName
  split
  · rename_i used
    exact ⟨fun same => absurd same (numbered_ne _ _), fun free => absurd used free⟩
  · rename_i free
    exact ⟨fun _ => free, fun _ => rfl⟩

theorem Covers.freeName_least (covers : Covers taken columns) (repeated : Takes columns name) :
    ∃ k, freeName taken name = numbered name k ∧
      IsLeast {k | 2 ≤ k ∧ ¬ Takes columns (numbered name k)} k ∧ k ≤ columns.length + 2 := by
  obtain ⟨low, high⟩ := freeNumber_bounds taken name taken.size 2
  refine ⟨freeNumber taken name taken.size 2, ?_, ⟨⟨low, ?_⟩, fun m ⟨two, free⟩ => ?_⟩, ?_⟩
  · rw [freeName, if_pos ((covers.contains name).mpr repeated)]
  · exact (covers.free _).mp (freeNumber_new 2)
  · by_contra before
    exact free ((covers.contains _).mp
      (freeNumber_least taken.size 2 two (Nat.lt_of_not_le before)))
  · have size := covers.size
    omega

/-! ## All names -/

theorem dedupeFrom_get {names before : List String} {i : Nat} (covers : Covers taken before)
    (present : names[i]? = some name) :
    ∃ taken', Covers taken' (before ++ (dedupeFrom taken [] names).take i) ∧
      (dedupeFrom taken [] names)[i]? = some (freeName taken' name) := by
  induction names generalizing taken before i with
  | nil => cases present
  | cons first rest ih =>
    rw [dedupeFrom_cons]
    cases i with
    | zero =>
      cases present
      refine ⟨taken, ?_, rfl⟩
      rw [List.take_zero, List.append_nil]
      exact covers
    | succ i =>
      obtain ⟨taken', covers', found⟩ := ih (covers.insert (freeName taken first)) present
      refine ⟨taken', ?_, found⟩
      rw [List.take_succ_cons, List.append_cons]
      exact covers'

theorem dedupeFrom_of_distinct {names : List String}
    (free : ∀ name ∈ names, taken.contains (Text.lower name) = false)
    (distinct : (names.map Text.lower).Nodup) : dedupeFrom taken [] names = names := by
  induction names generalizing taken with
  | nil => rfl
  | cons name rest ih =>
    rw [List.map_cons, List.nodup_cons] at distinct
    have kept : freeName taken name = name := by
      rw [freeName, if_neg (Bool.not_eq_true _ ▸ free name List.mem_cons_self)]
    rw [dedupeFrom_cons, kept, ih _ distinct.2]
    intro other member
    rw [Std.HashSet.contains_insert, Bool.or_eq_false_iff, beq_eq_false_iff_ne]
    refine ⟨fun same => distinct.1 ?_, free other (List.mem_cons_of_mem _ member)⟩
    exact List.mem_map.mpr ⟨other, member, same.symm⟩

/-- Repeated names are told apart and nothing else is changed. A column keeps its name unless an
earlier column ended up with it, but for case. Then it gets the least number from 2 on that no earlier
column has taken with that name, which is small. The names are then apart, and telling them apart once
more changes nothing. -/
theorem dedupe_renames_least (names : List String) :
    let columns := dedupe names
    columns.length = names.length ∧
      (∀ (i : Nat) (name : String), names[i]? = some name →
        let earlier := columns.take i
        ∃ column, columns[i]? = some column ∧
          (column = name ↔ ¬ Takes earlier name) ∧
          (Takes earlier name → ∃ k, column = numbered name k ∧
            IsLeast {k | 2 ≤ k ∧ ¬ Takes earlier (numbered name k)} k ∧ k ≤ i + 2)) ∧
      (columns.map Text.lower).Nodup ∧
      dedupe columns = columns := by
  intro columns
  have renamed : List.Forall₂ Renamed names columns := dedupeFrom_renamed {} names
  have distinct : (columns.map Text.lower).Nodup := (dedupeFrom_distinct {} names).2
  refine ⟨renamed.length_eq.symm, fun i name present => ?_, distinct,
    dedupeFrom_of_distinct (fun _ _ => Std.HashSet.contains_empty) distinct⟩
  intro earlier
  obtain ⟨taken, covers, found⟩ := dedupeFrom_get covers_empty present
  rw [List.nil_append] at covers
  refine ⟨freeName taken name, found, covers.freeName_eq_iff name, fun repeated => ?_⟩
  obtain ⟨k, numbered, least, bound⟩ := covers.freeName_least repeated
  have few : (columns.take i).length ≤ i := List.length_take_le i columns
  exact ⟨k, numbered, least, Nat.le_trans bound (Nat.add_le_add_right few 2)⟩

/-- A number that is made up may be taken already, or be the name of a later column. -/
theorem dedupe_renames_least_past_taken :
    dedupe ["Col", "col", "col_2", "COL"] = ["Col", "col_2", "col_2_2", "COL_3"] := by
  have lowered : Text.lower "Col" = "col" ∧ Text.lower "col" = "col" ∧
      Text.lower "col_2" = "col_2" ∧ Text.lower "col_2_2" = "col_2_2" ∧
      Text.lower "COL" = "col" ∧ Text.lower "COL_2" = "col_2" ∧ Text.lower "COL_3" = "col_3" := by
    decide +kernel
  have numbers : numbered "col" 2 = "col_2" ∧ numbered "col_2" 2 = "col_2_2" ∧
      numbered "COL" 2 = "COL_2" ∧ numbered "COL" 3 = "COL_3" := by
    decide +kernel
  obtain ⟨length, columns, -, -⟩ := dedupe_renames_least ["Col", "col", "col_2", "COL"]
  generalize dedupe ["Col", "col", "col_2", "COL"] = renamed at length columns ⊢
  match renamed, length with
  | [a, b, c, d], _ =>
    obtain ⟨_, ⟨rfl⟩, first, -⟩ := columns 0 "Col" rfl
    obtain rfl : a = "Col" := first.mpr (by simp [Takes])
    obtain ⟨_, ⟨rfl⟩, -, second⟩ := columns 1 "col" rfl
    obtain ⟨k, rfl, ⟨⟨two, -⟩, least⟩, -⟩ := second (by simp [Takes, lowered])
    obtain rfl : k = 2 :=
      Nat.le_antisymm (least ⟨Nat.le_refl 2, by simp [Takes, lowered, numbers]⟩) two
    obtain ⟨_, ⟨rfl⟩, -, third⟩ := columns 2 "col_2" rfl
    obtain ⟨k, rfl, ⟨⟨two, -⟩, least⟩, -⟩ := third (by simp [Takes, lowered, numbers])
    obtain rfl : k = 2 :=
      Nat.le_antisymm (least ⟨Nat.le_refl 2, by simp [Takes, lowered, numbers]⟩) two
    obtain ⟨_, ⟨rfl⟩, -, fourth⟩ := columns 3 "COL" rfl
    obtain ⟨k, rfl, ⟨⟨two, free⟩, least⟩, -⟩ := fourth (by simp [Takes, lowered, numbers])
    have three : k ≤ 3 := least ⟨Nat.le_succ 2, by simp [Takes, lowered, numbers]⟩
    have other : k ≠ 2 := by
      rintro rfl
      exact free (by simp [Takes, lowered, numbers])
    obtain rfl : k = 3 := by omega
    simp [numbers]

end Tabular.Table
