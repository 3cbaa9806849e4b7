import Tabular.Proofs.Csv.WholeInput

/-!
An input that is cut off in front of one of its records. The records in front of the cut are read as
they were.
-/
namespace Tabular.Csv

namespace Grammar

/-- A cell that ends in front of some byte ends there whatever follows that byte. -/
theorem resume_split (delimiter : UInt8) {state : TokenState} {text found rest : Bytes} {b : UInt8}
    (behind : state.isBetweenRecords = false)
    (reads : resume delimiter state text = (found, b :: rest)) :
    ∃ taken, text = taken ++ b :: rest ∧
      ∀ later, resume delimiter state (taken ++ b :: later) = (found, b :: later) := by
  induction text generalizing state found with
  | nil =>
    simp at reads
  | cons first text ih =>
    rcases reads_step delimiter state first (by simp [behind]) with
      ⟨-, -, -, ends⟩ | ⟨within, goes_on⟩
    · rw [ends] at reads
      cases reads
      exact ⟨[], rfl, ends⟩
    · rw [goes_on] at reads
      obtain ⟨rfl, left⟩ := Prod.mk.inj reads
      obtain ⟨taken, split, same⟩ := ih (TokenState.isBetweenRecords_of_within within)
        (Prod.ext rfl left)
      refine ⟨first :: taken, by rw [split]; rfl, fun later => ?_⟩
      rw [List.cons_append, goes_on, same]

theorem cell_eq (delimiter : UInt8) (text : Bytes) :
    cell delimiter text =
      ({ bytes := (resume delimiter .fieldEnd text).1, quoted := text.head? == some Byte.quote },
        (resume delimiter .fieldEnd text).2) := by
  rw [← cell_quoted delimiter text]
  rfl

theorem cell_split (delimiter : UInt8) {text rest : Bytes} {c : Cell} {b : UInt8}
    (reads : cell delimiter text = (c, b :: rest)) :
    ∃ taken, text = taken ++ b :: rest ∧
      ∀ later, cell delimiter (taken ++ b :: later) = (c, b :: later) := by
  rw [cell_eq] at reads
  obtain ⟨rfl, left⟩ := Prod.mk.inj reads
  obtain ⟨taken, split, same⟩ := resume_split delimiter rfl (Prod.ext rfl left)
  refine ⟨taken, split, fun later => ?_⟩
  have front : (taken ++ b :: later).head? = text.head? := by
    rw [split]
    cases taken <;> rfl
  rw [cell_eq, same, front]

/-- A record that is followed by something is ended by a line break, and reads the same whatever
follows it. -/
theorem record_split (delimiter : UInt8) (text : Bytes)
    (more : (record delimiter text).2 ≠ []) :
    ∃ taken, text = taken ++ (record delimiter text).2 ∧
      ∀ later, record delimiter (taken ++ later) = ((record delimiter text).1, later) := by
  fun_induction record delimiter text with
  | case1 text c first => exact absurd rfl more
  | case2 text c rest cells after same first ih =>
    rw [same] at ih
    obtain ⟨inside, split, others⟩ := ih more
    obtain ⟨taken, rfl, reads⟩ := cell_split delimiter first
    refine ⟨taken ++ delimiter :: inside, ?_, fun later => ?_⟩
    · rw [List.append_assoc, List.cons_append, ← split]
    · rw [List.append_assoc, List.cons_append, record_eq, reads, closeCell, if_pos rfl, others]
  | case3 text c b rest first other =>
    obtain ⟨taken, rfl, reads⟩ := cell_split delimiter first
    refine ⟨taken ++ [b], by rw [List.append_assoc]; rfl, fun later => ?_⟩
    rw [List.append_assoc, List.singleton_append, record_eq, reads, closeCell, if_neg other]

/-- What stands behind the first `n` records of a text and the line breaks that follow them. -/
def behindRecords (delimiter : UInt8) : Nat → Bytes → Bytes
  | 0, text => text.dropWhile Byte.isLineBreak
  | n + 1, text =>
      behindRecords delimiter n (record delimiter (text.dropWhile Byte.isLineBreak)).2

@[simp] theorem behindRecords_nil (delimiter : UInt8) (n : Nat) :
    behindRecords delimiter n [] = [] := by
  induction n with
  | zero => rfl
  | succ n ih =>
    rw [behindRecords, List.dropWhile_nil, record_eq]
    exact ih

theorem records_split (delimiter : UInt8) (n : Nat) (text : Bytes) :
    ∃ front, text = front ++ behindRecords delimiter n text ∧
      records delimiter front = (records delimiter text).take n := by
  induction n generalizing text with
  | zero =>
    refine ⟨text.takeWhile Byte.isLineBreak, List.takeWhile_append_dropWhile.symm, ?_⟩
    rw [List.take_zero]
    apply records_of_blank
    exact List.dropWhile_eq_nil_iff.mpr fun b member => List.mem_takeWhile_imp member
  | succ n ih =>
    have parted : text.takeWhile Byte.isLineBreak ++ text.dropWhile Byte.isLineBreak = text :=
      List.takeWhile_append_dropWhile
    have blank : ∀ b ∈ text.takeWhile Byte.isLineBreak, Byte.isLineBreak b = true :=
      fun b member => List.mem_takeWhile_imp member
    have begun : ∀ b, (text.dropWhile Byte.isLineBreak).head? = some b →
        Byte.isLineBreak b = false := by
      intro b first
      have met := List.head?_dropWhile_not Byte.isLineBreak text
      rwa [first] at met
    rw [behindRecords, ← records_dropWhile delimiter text]
    generalize text.takeWhile Byte.isLineBreak = breaks at parted blank
    generalize text.dropWhile Byte.isLineBreak = body at parted begun ⊢
    subst parted
    have passed : ∀ later, records delimiter (breaks ++ later) = records delimiter later := by
      intro later
      rw [← records_dropWhile, List.dropWhile_append_of_pos blank, records_dropWhile]
    by_cases last : (record delimiter body).2 = []
    · -- The records end here, so all of the text is in front.
      rw [last, behindRecords_nil]
      refine ⟨breaks ++ body, (List.append_nil _).symm, ?_⟩
      rw [passed]
      by_cases none : body = []
      · simp [none]
      · simp [records_eq_cons delimiter body none begun, last]
    · have some : body ≠ [] := by
        rintro rfl
        exact last (by rw [record_eq]; rfl)
      obtain ⟨taken, split, same⟩ := record_split delimiter body last
      obtain ⟨front, split', reads⟩ := ih (record delimiter body).2
      have shorter := record_length_lt delimiter body some
      have head : ∀ later, (taken ++ later).head? = body.head? := by
        intro later
        rw [split]
        cases taken with
        | nil => exact absurd (congrArg List.length split) (Nat.ne_of_gt shorter)
        | cons b more => rfl
      have first : records delimiter (taken ++ front) =
          (record delimiter body).1 :: records delimiter front := by
        have begins := head front
        have nonempty : taken ++ front ≠ [] := by
          intro none
          rw [none] at begins
          exact some (List.head?_eq_none_iff.mp begins.symm)
        rw [records_eq_cons delimiter _ nonempty fun b same => begun b (begins ▸ same), same]
      refine ⟨breaks ++ (taken ++ front), ?_, ?_⟩
      · rw [List.append_assoc, List.append_assoc, ← split', ← split]
      · rw [passed, first, reads, records_eq_cons delimiter body some begun, List.take_succ_cons]

end Grammar

open Grammar

/-- An input up to the record of the given number, which is counted from 1. -/
def cutBefore (delimiter : UInt8) (number : Nat) (input : Bytes) : Bytes :=
  input.take (input.length - (behindRecords delimiter (number - 1) (withoutMark input)).length)

theorem take_of_append (front behind : Bytes) :
    (front ++ behind).take ((front ++ behind).length - behind.length) = front := by
  rw [List.length_append, Nat.add_sub_cancel, List.take_left]

theorem reference_cutBefore (delimiter : UInt8) (number : Nat) (input : Bytes) :
    reference delimiter (cutBefore delimiter number input) =
      (reference delimiter input).take (number - 1) := by
  obtain ⟨front, split, reads⟩ := records_split delimiter (number - 1) (withoutMark input)
  rw [cutBefore, reference, reference, ← reads]
  generalize behindRecords delimiter (number - 1) (withoutMark input) = behind at split ⊢
  cases marked : startsWithMark input with
  | true =>
    obtain ⟨rest, rfl⟩ := (startsWithMark_iff input).mp marked
    have text : ∀ later, withoutMark (byteOrderMark ++ later) = later := by
      intro later
      rw [withoutMark, if_pos ((startsWithMark_iff _).mpr ⟨later, rfl⟩), List.drop_left]
    rw [text] at split
    rw [split, ← List.append_assoc, take_of_append, text]
  | false =>
    rw [withoutMark, if_neg (by simp [marked])] at split
    rw [split] at marked ⊢
    have unmarked := Parser.startsWithMark_append marked
    rw [take_of_append, withoutMark, if_neg (by simp [unmarked])]

end Tabular.Csv
