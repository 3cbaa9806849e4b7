import Tabular.Proofs.Table.Arguments

/-!
Values that are written as they are. A value that stands in no quotes or brackets is read verbatim
exactly if each of its ends is a character of one byte; with any other end it cannot be examined,
and neither can a list of arguments in which it is the first to be at fault.
-/
namespace Tabular

namespace Text

/-- Text that neither begins nor ends with a blank. -/
structure Trimmed (text : List Char) : Prop where
  begins : ∀ c ∈ text.head?, isBlank c = false
  ends : ∀ c ∈ text.getLast?, isBlank c = false

theorem Trimmed.trim_eq {text : List Char} (trimmed : Trimmed text) : trim text = text := by
  have same := trim_between ⟨"", rfl⟩ ⟨"", rfl⟩ text trimmed.begins trimmed.ends
  simpa using same

end Text

namespace Table.Params

open Text

/-! ## One value -/

def enclosures : List (Char × Char) := [('\'', '\''), ('"', '"'), ('`', '`'), ('[', ']')]

/-- A value in quotes of one kind or in brackets. -/
def Enclosed (value : List Char) : Prop :=
  ∃ opening closing inside, (opening, closing) ∈ enclosures ∧
    value = opening :: (inside ++ [closing])

theorem Enclosed.ends {value : List Char} (enclosed : Enclosed value) :
    ∃ pair ∈ enclosures, value.head? = some pair.1 ∧ value.getLast? = some pair.2 := by
  obtain ⟨opening, closing, inside, known, rfl⟩ := enclosed
  exact ⟨(opening, closing), known, rfl, by rw [← List.cons_append, List.getLast?_concat]⟩

theorem enclosures_of_isQuoted {first last : Char} (quoted : isQuoted first last = true) :
    (first, last) ∈ enclosures := by
  simp only [isQuoted, Bool.and_eq_true, Bool.or_eq_true, beq_iff_eq] at quoted
  obtain ⟨(rfl | rfl) | rfl, rfl⟩ := quoted <;> decide

theorem enclosures_of_isBracketed {first last : Char} (bracketed : isBracketed first last = true) :
    (first, last) ∈ enclosures := by
  simp only [isBracketed, Bool.and_eq_true, beq_iff_eq] at bracketed
  obtain ⟨rfl, rfl⟩ := bracketed
  decide

theorem isSingleByte_of_narrow {value : List Char} (narrow : ¬ HasWideEnd value) {c : Char}
    (outer : c ∈ value.head? ∨ c ∈ value.getLast?) : isSingleByte c = true :=
  decide_eq_true (Nat.lt_of_not_le fun wide => narrow ⟨c, outer, wide⟩)

theorem dequote_of_plain {value : List Char} (narrow : ¬ HasWideEnd value)
    (plain : ¬ Enclosed value) : dequote value = some value := by
  rcases List.eq_nil_or_concat value with rfl | ⟨front, last, rfl⟩
  · rfl
  rw [List.concat_eq_append] at narrow plain ⊢
  have closes : isSingleByte last = true := isSingleByte_of_narrow narrow (Or.inr (by simp))
  cases front with
  | nil => simp [dequote, closes]
  | cons first inside =>
    have opens : isSingleByte first = true := isSingleByte_of_narrow narrow (Or.inl (by simp))
    have open_ : (first, last) ∉ enclosures := fun known => plain ⟨first, last, inside, known, rfl⟩
    rw [List.cons_append, dequote_between opens closes,
      if_neg fun quoted => open_ (enclosures_of_isQuoted quoted),
      if_neg fun bracketed => open_ (enclosures_of_isBracketed bracketed)]

/-! ## Arguments -/

theorem keyText_data (text : String) : keyText ("data=" ++ text) = "data" := by
  rw [keyText, String.toList_append]
  rfl

theorem valueText_data (text : String) : valueText ("data=" ++ text) = trim text.toList := by
  rw [valueText, String.toList_append]
  rfl

theorem keyed_data (text : String) : Keyed ("data=" ++ text) := by
  refine ⟨?_, by rw [keyText_data]; decide⟩
  rw [String.toList_append]
  exact List.mem_append_left _ (by decide)

/-! ## Lists that cannot be examined -/

theorem foldlM_eq_error_iff {α β ε : Type} {f : β → α → Except ε β} {start : β} {list : List α}
    {error : ε} :
    list.foldlM f start = .error error ↔
      ∃ before a after between, list = before ++ a :: after ∧
        before.foldlM f start = .ok between ∧ f between a = .error error := by
  induction list generalizing start with
  | nil => exact iff_of_false (by simp [pure, Except.pure]) (by simp)
  | cons a rest ih =>
    rw [List.foldlM_cons]
    cases first : f start a with
    | error found =>
      constructor
      · rintro ⟨rfl⟩
        exact ⟨[], a, rest, start, rfl, rfl, first⟩
      · rintro ⟨before, b, after, between, same, taken, failed⟩
        cases before with
        | nil =>
          cases same
          cases taken
          exact first.symm.trans failed
        | cons c before =>
          cases same
          rw [List.foldlM_cons, first] at taken
          cases taken
    | ok next =>
      refine Iff.trans ih ⟨?_, ?_⟩
      · rintro ⟨before, b, after, between, rfl, taken, failed⟩
        refine ⟨a :: before, b, after, between, rfl, ?_, failed⟩
        rw [List.foldlM_cons, first]
        exact taken
      · rintro ⟨before, b, after, between, same, taken, failed⟩
        cases before with
        | nil =>
          cases same
          cases taken
          cases first.symm.trans failed
        | cons c before =>
          cases same
          rw [List.foldlM_cons, first] at taken
          exact ⟨before, b, after, between, rfl, taken, failed⟩

theorem once_ne_abandoned {α : Type} {seen : Bool} {key : String} {value : Except Halt α}
    (examined : value ≠ .error .abandoned) : once seen key value ≠ .error .abandoned := by
  cases seen with
  | false => exact examined
  | true => simp [once]

theorem parseMaxColumns_ne_abandoned (value : String) :
    parseMaxColumns value ≠ .error .abandoned := by
  unfold parseMaxColumns
  repeat' split
  all_goals simp

theorem parseTestFlags_ne_abandoned (argument value : String) :
    parseTestFlags argument value ≠ .error .abandoned := by
  unfold parseTestFlags
  repeat' split
  all_goals simp

theorem Reading.add_eq_abandoned_iff {r : Reading} {argument : String} :
    r.add argument = .error .abandoned ↔ Keyed argument ∧ HasWideEnd (valueText argument) := by
  rw [← split_eq_abandoned_iff]
  unfold Reading.add
  rcases splits : split argument with halt | ⟨key, value⟩
  · simp [bind, Except.bind]
  · have columns := parseMaxColumns_ne_abandoned value
    have flags := parseTestFlags_ne_abandoned argument value
    refine iff_of_false ?_ (by simp)
    simp only [bind, Except.bind]
    split
    · exact once_ne_abandoned (by simp)
    · exact once_ne_abandoned (by simp)
    · exact once_ne_abandoned (by simp)
    · refine once_ne_abandoned ?_
      cases read : parseMaxColumns value <;> simp_all
    · refine once_ne_abandoned ?_
      cases read : parseTestFlags argument value <;> simp_all
    · simp

theorem Reading.complete_ne_abandoned (r : Reading) : r.complete ≠ .error .abandoned := by
  unfold Reading.complete
  repeat' split
  all_goals simp

/-- Arguments cannot be examined if the first of them to be at fault is one whose value cannot. -/
theorem parse_eq_abandoned_iff {arguments : List String} :
    parse arguments = .error .abandoned ↔
      ∃ before argument after, arguments = before ++ argument :: after ∧ InOrder before ∧
        Keyed argument ∧ HasWideEnd (valueText argument) := by
  have reading : parse arguments = .error .abandoned ↔
      arguments.foldlM Reading.add {} = .error .abandoned := by
    unfold parse
    cases arguments.foldlM Reading.add {} with
    | error halt => simp [bind, Except.bind]
    | ok r => exact iff_of_false r.complete_ne_abandoned (by simp)
  rw [reading, foldlM_eq_error_iff]
  simp only [Reading.add_eq_abandoned_iff, ← Reading.foldlM_initial_taken_iff]
  refine exists_congr fun before => exists_congr fun argument => exists_congr fun after => ?_
  exact ⟨fun ⟨r, same, taken, wide⟩ => ⟨same, ⟨r, taken⟩, wide⟩,
    fun ⟨same, ⟨r, taken⟩, wide⟩ => ⟨r, same, taken, wide⟩⟩

/-- A value in no quotes or brackets is read verbatim if its ends are of one byte each, and with
any other end it is what stops the reading of the arguments; they are read to a result or to an
error unless the first of them to be at fault has such a value. -/
theorem parse_plain (text : String) (trimmed : Trimmed text.toList)
    (plain : ¬ Enclosed text.toList) (arguments : List String) :
    (¬ HasWideEnd text.toList → parse ["data=" ++ text] = .ok { data := some text }) ∧
      (HasWideEnd text.toList → parse ["data=" ++ text] = .error .abandoned) ∧
      (parse arguments = .error .abandoned ↔
        ∃ before argument after, arguments = before ++ argument :: after ∧ InOrder before ∧
          Keyed argument ∧ HasWideEnd (valueText argument)) := by
  refine ⟨fun narrow => ?_, fun wide => ?_, parse_eq_abandoned_iff⟩
  · have read : dequote (valueText ("data=" ++ text)) = some text.toList := by
      rw [valueText_data, trimmed.trim_eq, dequote_of_plain narrow plain]
    have splits : split ("data=" ++ text) = .ok ("data", text) :=
      split_eq_ok_iff.mpr ⟨keyed_data text, (keyText_data text).symm, read⟩
    have added : ({} : Reading).add ("data=" ++ text) = .ok { params := { data := some text } } :=
      Reading.add_eq_ok_iff.mpr ⟨_, _, splits, .data rfl⟩
    refine parse_eq_ok_iff.mpr ⟨{ params := { data := some text } }, ?_, rfl, trivial⟩
    rw [List.foldlM_cons, added]
    rfl
  · refine parse_eq_abandoned_iff.mpr ⟨[], _, [], rfl, ⟨by simp, by simp⟩, keyed_data text, ?_⟩
    rwa [valueText_data, trimmed.trim_eq]

/-- Quotes that do not match and characters of several bytes do not matter inside a value; at its
end only the latter do. -/
theorem parse_plain_unmatched :
    parse ["data='a=[é] \"b]"] = .ok { data := some "'a=[é] \"b]" } ∧
      parse ["data='a=[b] \"é"] = .error .abandoned := by
  have first := parse_plain "'a=[é] \"b]" ⟨by simp [isBlank], by simp [isBlank]⟩
    (fun enclosed => absurd enclosed.ends (by decide)) []
  have second := parse_plain "'a=[b] \"é" ⟨by simp [isBlank], by simp [isBlank]⟩
    (fun enclosed => absurd enclosed.ends (by decide)) []
  exact ⟨first.1 (by decide +kernel), second.2.1 (by decide +kernel)⟩

/-- One accented letter cannot be given as it is. -/
theorem parse_abandons_accent :
    Trimmed "é".toList ∧ ¬ Enclosed "é".toList ∧ parse ["data=é"] = .error .abandoned ∧
      parse ["data=é"] ≠ .ok { data := some "é" } := by
  have abandoned : parse ["data=é"] = .error .abandoned := by decide +kernel
  refine ⟨⟨by simp [isBlank], by simp [isBlank]⟩, fun enclosed => ?_, abandoned, ?_⟩
  · exact absurd enclosed.ends (by decide)
  rw [abandoned]
  simp

end Table.Params

end Tabular
