import Tabular.Proofs.Csv.Endings
import Tabular.Proofs.Csv.SecondMark

/-!
Where the limit on the size of a record lies. The row buffer is compared with nothing: a record is
refused when a byte is to be read while the buffer is full, be it text of a cell or the delimiter, the
quote or the line break behind it. So a record that fills the buffer to the last byte is taken only
if the input ends with that byte.
-/
namespace Tabular.Csv

/-- A record that is too large where `after` is behind it. One that just fills the buffer is, unless
it is the last and the input ends within its text. -/
def Options.Overflows (o : Options) (inText : Prop) (r : Record) (after : List Record) : Prop :=
  o.bufferSize < recordSize r ∨ recordSize r = o.bufferSize ∧ ¬ (after = [] ∧ inText)

namespace Options.Takes

variable {o : Options} {inText : Prop} {number : Nat} {rs taken : List Record}
  {ending : Except Error Unit}

theorem stops (takes : o.Takes inText number rs taken ending) :
    (ending = .ok () ∧ taken = rs) ∨
      ∃ error, ending = .error error ∧ o.Refuses (number + taken.length) error ∧
        taken = rs.take taken.length := by
  induction takes with
  | done number => exact Or.inl ⟨rfl, rfl⟩
  | @next number r rest taken ending narrow room later ih =>
    rcases ih with ⟨all, rfl⟩ | ⟨error, failed, refuses, front⟩
    · exact Or.inl ⟨all, rfl⟩
    · refine Or.inr ⟨error, failed, ?_, ?_⟩
      · rw [List.length_cons, Nat.add_comm taken.length, ← Nat.add_assoc]
        exact refuses
      · rw [List.length_cons, List.take_succ_cons, ← front]
  | wide wide => exact Or.inr ⟨_, rfl, .columns, rfl⟩
  | large large => exact Or.inr ⟨_, rfl, .size, rfl⟩

theorem length_taken_lt {error : Error} (takes : o.Takes inText number rs taken (.error error)) :
    taken.length < rs.length := by
  generalize failed : Except.error error = ending at takes
  induction takes with
  | done number => cases failed
  | next narrow room later ih => exact Nat.succ_lt_succ (ih failed)
  | wide wide => exact Nat.succ_pos _
  | large large => exact Nat.succ_pos _

theorem fits_of_error {error : Error} (takes : o.Takes inText number rs taken (.error error)) :
    ∀ r ∈ taken, o.Fits r := by
  generalize failed : Except.error error = ending at takes
  induction takes with
  | done number => cases failed
  | @next number r rest taken ending narrow room later ih =>
    intro member among
    rcases List.mem_cons.mp among with rfl | among
    · refine ⟨narrow, room.resolve_right ?_⟩
      rintro ⟨-, rfl, -⟩
      cases later
      cases failed
    · exact ih failed member among
  | wide wide => exact fun r none => absurd none List.not_mem_nil
  | large large => exact fun r none => absurd none List.not_mem_nil

theorem rowTooLarge_iff (takes : o.Takes inText number rs taken ending)
    (narrow : ∀ r ∈ rs, r.length ≤ o.maxColumns) (k : Nat) :
    ending = .error (.rowTooLarge k o.bufferSize) ↔
      ∃ before r after, rs = before ++ r :: after ∧ number + before.length = k ∧
        (∀ b ∈ before, recordSize b < o.bufferSize) ∧ o.Overflows inText r after := by
  induction takes with
  | done number =>
    refine ⟨fun failed => (by cases failed), ?_⟩
    rintro ⟨before, r, after, none, -⟩
    cases before <;> cases none
  | @next number r rest taken ending _ room later ih =>
    rw [ih fun b member => narrow b (List.mem_cons_of_mem _ member)]
    simp only [List.cons_eq_append_iff]
    constructor
    · rintro ⟨before, big, after, rfl, same, smaller, overflows⟩
      have less : recordSize r < o.bufferSize := room.resolve_right (by simp)
      refine ⟨r :: before, big, after, Or.inr ⟨before, rfl, rfl⟩, ?_, ?_, overflows⟩
      · rw [List.length_cons]
        omega
      · intro b member
        rcases List.mem_cons.mp member with rfl | member
        · exact less
        · exact smaller b member
    · rintro ⟨before, big, after, ⟨rfl, first⟩ | ⟨rest', rfl, rfl⟩, same, smaller, overflows⟩
      · obtain ⟨rfl, rfl⟩ := List.cons.inj first
        rcases overflows with more | ⟨full, goes_on⟩
        · omega
        · rcases room with less | ⟨-, last⟩
          · omega
          · exact absurd last goes_on
      · rw [List.length_cons] at same
        exact ⟨rest', big, after, rfl, by omega,
          fun b member => smaller b (List.mem_cons_of_mem _ member), overflows⟩
  | wide wide => exact absurd wide (Nat.not_lt_of_le (narrow _ List.mem_cons_self))
  | @large number r rest large exact =>
    have overflows : o.Overflows inText r rest := by
      rcases Nat.lt_or_eq_of_le large with more | full
      · exact Or.inl more
      · exact Or.inr ⟨full.symm, exact full.symm⟩
    constructor
    · intro failed
      cases failed
      exact ⟨[], r, rest, rfl, rfl, fun b none => absurd none List.not_mem_nil, overflows⟩
    · rintro ⟨before, big, after, split, same, smaller, -⟩
      cases before with
      | nil =>
        rw [← same]
        rfl
      | cons b before =>
        obtain ⟨rfl, -⟩ := List.cons.inj split
        exact absurd (smaller _ List.mem_cons_self) (Nat.not_lt_of_le large)

theorem wide_of_columns {k : Nat} (takes : o.Takes inText number rs taken ending)
    (failed : ending = .error (.tooManyColumns k o.maxColumns)) : ∃ r ∈ rs, o.maxColumns < r.length := by
  induction takes with
  | done number => cases failed
  | next narrow room later ih =>
    obtain ⟨r, member, wide⟩ := ih failed
    exact ⟨r, List.mem_cons_of_mem _ member, wide⟩
  | wide wide => exact ⟨_, List.mem_cons_self, wide⟩
  | large large => cases failed

theorem stops_large (takes : o.Takes inText number rs taken ending)
    (narrow : ∀ r ∈ rs, r.length ≤ o.maxColumns) :
    (ending = .ok () ∧ taken = rs) ∨
      ending = .error (.rowTooLarge (number + taken.length) o.bufferSize) ∧
        taken = rs.take taken.length := by
  rcases takes.stops with all | ⟨error, failed, refuses, front⟩
  · exact Or.inl all
  · cases refuses with
    | size => exact Or.inr ⟨failed, front⟩
    | columns =>
      obtain ⟨r, member, wide⟩ := takes.wide_of_columns failed
      exact absurd wide (Nat.not_lt_of_le (narrow r member))

end Options.Takes

/-! ## Where the limit is exact -/

/-- Record `k` is the first of the records, numbered from `number`, that is larger than the row
buffer. -/
def Options.FirstLarger (o : Options) (number : Nat) (rs : List Record) (k : Nat) : Prop :=
  ∃ before r after, rs = before ++ r :: after ∧ number + before.length = k ∧
    (∀ b ∈ before, recordSize b ≤ o.bufferSize) ∧ o.bufferSize < recordSize r

/-- No record just fills the row buffer, but for a last one within the text of which the input ends.
Records behind one that does not leave room do not count. -/
def Options.NoneJustFills (o : Options) (inText : Prop) (rs : List Record) : Prop :=
  ∀ before r after, rs = before ++ r :: after → (∀ b ∈ before, recordSize b < o.bufferSize) →
    recordSize r = o.bufferSize → after = [] ∧ inText

theorem exists_first_full {o : Options} {rs : List Record} {r : Record} (member : r ∈ rs)
    (full : o.bufferSize ≤ recordSize r) : ∃ before first after, rs = before ++ first :: after ∧
      (∀ b ∈ before, recordSize b < o.bufferSize) ∧ o.bufferSize ≤ recordSize first := by
  have some : (rs.find? fun r => o.bufferSize ≤ recordSize r).isSome :=
    List.find?_isSome.mpr ⟨r, member, by simpa using full⟩
  obtain ⟨first, found⟩ := Option.isSome_iff_exists.mp some
  obtain ⟨large, before, after, split, smaller⟩ := List.find?_eq_some_iff_append.mp found
  exact ⟨before, first, after, split, fun b member => by simpa using smaller b member,
    by simpa using large⟩

/-- A record is refused exactly if it is the first that is larger than the row buffer, unless a record
in front of all such just fills it. -/
theorem Options.Takes.firstLarger_iff {o : Options} {inText : Prop} {number : Nat}
    {rs taken : List Record} {ending : Except Error Unit} (takes : o.Takes inText number rs taken ending)
    (narrow : ∀ r ∈ rs, r.length ≤ o.maxColumns) :
    (∀ k, ending = .error (.rowTooLarge k o.bufferSize) ↔ o.FirstLarger number rs k) ↔
      o.NoneJustFills inText rs := by
  constructor
  · intro exact before r after split smaller full
    by_contra goes_on
    have failed := (takes.rowTooLarge_iff narrow (number + before.length)).mpr
      ⟨before, r, after, split, rfl, smaller, Or.inr ⟨full, goes_on⟩⟩
    obtain ⟨before', r', after', split', same, -, large⟩ := (exact _).mp failed
    obtain ⟨-, rest⟩ := List.append_inj (split.symm.trans split') (by omega)
    rw [(List.cons.inj rest).1] at full
    omega
  · intro none k
    rw [takes.rowTooLarge_iff narrow]
    constructor
    · rintro ⟨before, r, after, split, same, smaller, larger | ⟨full, goes_on⟩⟩
      · exact ⟨before, r, after, split, same, fun b member => Nat.le_of_lt (smaller b member), larger⟩
      · exact absurd (none before r after split smaller full) goes_on
    · rintro ⟨before, r, after, split, same, fits, larger⟩
      refine ⟨before, r, after, split, same, fun b member => ?_, Or.inl larger⟩
      by_contra full
      -- The first record in front of it that leaves no room just fills the buffer.
      obtain ⟨front, first, rest, split', smaller, large⟩ :=
        exists_first_full (o := o) member (Nat.le_of_not_lt full)
      have most := fits first (by rw [split']; simp)
      have last := (none front first (rest ++ r :: after) (by rw [split, split']; simp) smaller
        (Nat.le_antisymm most large)).1
      simp at last

/-- A run is stopped by the size of a record exactly where the first record overflows: one that is
larger than the row buffer, or that fills it and is followed by anything at all. The rows in front of
that record have been handed over, and without one all rows. So the limit is that of the row buffer
exactly if no record just fills it, but for a last one within the text of which the input ends. -/
theorem drain_rowTooLarge_iff (input : Bytes) (reads : List ReadEvent) (options : Options)
    (allowed : options.Allowed) (steady : ∀ event ∈ reads, event.isSteady = true) :
    ∃ p rows ending, Parser.new (Source.ofBytes input reads) options = .ok p ∧
      p.HandsOver rows ending ∧
      p.handedFirst <+: (Grammar.withoutMark input).dropWhile Byte.isLineBreak ∧
      let read := readAs options.delimiter p.handedFirst
      let text := Grammar.withoutMark input
      (∀ r ∈ read text, r.length ≤ options.maxColumns) →
        (∀ k, ending = .error (.rowTooLarge k options.bufferSize) ↔
          ∃ before r after, read text = before ++ r :: after ∧ 1 + before.length = k ∧
            (∀ b ∈ before, recordSize b < options.bufferSize) ∧
            options.Overflows (EndsInText read text) r after) ∧
        ((ending = .ok () ∧ rows.map Row.cells = read text) ∨
          ending = .error (.rowTooLarge (1 + rows.length) options.bufferSize) ∧
            rows.map Row.cells = (read text).take rows.length) ∧
        ((∀ k, ending = .error (.rowTooLarge k options.bufferSize) ↔
            options.FirstLarger 1 (read text) k) ↔
          options.NoneJustFills (EndsInText read text) (read text)) := by
  obtain ⟨front, rows, taken, ending, takes, deliver, run⟩ :=
    Parser.initial_drains (Source.ofBytes input reads) steady allowed
  have length : taken.length = rows.length := by rw [← deliver.cells, List.length_map]
  refine ⟨_, rows, ending, Parser.new_eq_initial _ allowed, Parser.handsOver_of_run run, front,
    fun narrow => ⟨takes.rowTooLarge_iff narrow, ?_, takes.firstLarger_iff narrow⟩⟩
  rw [deliver.cells, ← length]
  exact takes.stops_large narrow

/-- A record that just fills the row buffer is refused for the line break behind it. -/
theorem drain_refuses_full_record :
    let input : Bytes := [97, 98, 10, 97, 44, 98, 99, 10]
    let reads : List ReadEvent := [.atMost 1, .interrupted, .atMost 4]
    let options : Options := { bufferSize := 3, maxColumns := 2, readChunk := 2 }
    ∃ p rows, Parser.new (Source.ofBytes input reads) options = .ok p ∧
      rows.map Row.cells = [[⟨[97, 98], false⟩]] ∧ p.HandsOver rows (.error (.rowTooLarge 2 3)) := by
  intro input reads options
  obtain ⟨p, rows, ending, made, run, -, exact⟩ :=
    drain_rowTooLarge_iff input reads options ⟨rfl, by decide, by decide⟩ (by decide)
  have read : readAs options.delimiter p.handedFirst = Grammar.records Byte.comma := by
    apply readAs_literal
    cases made
    decide +kernel
  have found : Grammar.records Byte.comma (Grammar.withoutMark input) =
      [[⟨[97, 98], false⟩], [⟨[97], false⟩, ⟨[98, 99], false⟩]] := by decide +kernel
  rw [read] at exact
  obtain ⟨refused, stopped, -⟩ := exact (by rw [found]; decide)
  have failed : ending = .error (.rowTooLarge 2 3) :=
    (refused 2).mpr ⟨[[⟨[97, 98], false⟩]], [⟨[97], false⟩, ⟨[98, 99], false⟩], [], found, rfl,
      by decide, Or.inr ⟨rfl, by decide +kernel⟩⟩
  subst failed
  rcases stopped with ⟨well, -⟩ | ⟨number, front⟩
  · cases well
  · have length : rows.length = 1 := by
      have same := Error.rowTooLarge.inj (Except.error.inj number)
      omega
    refine ⟨p, rows, made, ?_, run⟩
    rw [front, found, length]
    rfl

/-- A record that just fills the row buffer is refused or taken depending on what is behind it. -/
theorem delivered_depends_on_line_break :
    let options : Options := { bufferSize := 3 }
    let r : Record := [⟨[97, 98, 99], false⟩]
    reference Byte.comma [97, 98, 99, 10] = [r] ∧ recordSize r = options.bufferSize ∧
      delivered (Source.ofBytes [97, 98, 99, 10]) options = .error (.rowTooLarge 1 3) ∧
      delivered (Source.ofBytes [97, 98, 99]) options = .ok [r] := by
  decide +kernel

end Tabular.Csv
