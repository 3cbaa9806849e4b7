import Mathlib.Data.List.Induction
import Mathlib.Data.List.TakeWhile
import Mathlib.Data.Nat.Digits.Defs
import Tabular.Proofs.Table.Parameters

/-!
What an argument says on its own, and what a list of arguments comes to. An argument sets one
parameter, or cannot be examined, or is at fault. A list is taken if each argument sets something
and no key is given twice; then what it holds is what its arguments set, and nothing else.
-/
namespace Tabular

/-! ## Decimal numerals -/

namespace Text

def digitChar (digit : Fin 10) : Char := Char.ofNat (48 + digit)

theorem digitChar_value (digit : Fin 10) : (digitChar digit).toNat - 48 = digit := by
  decide +revert

theorem digitChar_isDigit (digit : Fin 10) : (digitChar digit).isDigit = true := by
  decide +revert

theorem exists_digit_of_isDigit {c : Char} (isDigit : c.isDigit = true) :
    ∃ digit, c = digitChar digit := by
  have range : 48 ≤ c.toNat ∧ c.toNat ≤ 57 := by
    unfold Char.isDigit at isDigit
    simpa [UInt32.le_iff_toNat_le] using isDigit
  refine ⟨⟨c.toNat - 48, by omega⟩, ?_⟩
  rw [digitChar, Nat.add_sub_cancel' range.1, Char.ofNat_toNat]

def numberOf (digits : List (Fin 10)) : Nat := Nat.ofDigits 10 (digits.reverse.map Fin.val)

/-- A text that is a decimal numeral: digits, at least one, behind a plus sign or without it. -/
def Denotes (text : List Char) (n : Nat) : Prop :=
  ∃ digits, digits ≠ [] ∧ n = numberOf digits ∧
    (text = digits.map digitChar ∨ text = '+' :: digits.map digitChar)

theorem foldl_digits (digits : List (Fin 10)) :
    (digits.map digitChar).foldl (fun value c => 10 * value + (c.toNat - 48)) 0 =
      numberOf digits := by
  induction digits using List.reverseRecOn with
  | nil => rfl
  | append_singleton digits last ih =>
    rw [List.map_append, List.foldl_append, ih]
    simp only [List.map_cons, List.map_nil, List.foldl_cons, List.foldl_nil, digitChar_value]
    rw [numberOf, numberOf, List.reverse_concat, List.map_cons, Nat.ofDigits_cons]
    omega

theorem exists_digits_of_all {text : List Char} (all : text.all Char.isDigit = true) :
    ∃ digits : List (Fin 10), text = digits.map digitChar := by
  induction text with
  | nil => exact ⟨[], rfl⟩
  | cons c rest ih =>
    rw [List.all_cons, Bool.and_eq_true] at all
    obtain ⟨digit, rfl⟩ := exists_digit_of_isDigit all.1
    obtain ⟨digits, rfl⟩ := ih all.2
    exact ⟨digit :: digits, rfl⟩

theorem digits?_eq_some_iff {text : List Char} {n : Nat} :
    digits? text = some n ↔
      ∃ digits : List (Fin 10),
        digits ≠ [] ∧ n = numberOf digits ∧ text = digits.map digitChar := by
  unfold digits?
  constructor
  · intro read
    split at read
    · cases read
    · rename_i form
      simp only [Bool.or_eq_true, List.isEmpty_iff, Bool.not_eq_true', not_or,
        Bool.not_eq_false] at form
      obtain ⟨digits, rfl⟩ := exists_digits_of_all form.2
      rw [foldl_digits] at read
      exact ⟨digits, fun none => form.1 (by rw [none]; rfl), (Option.some.inj read).symm, rfl⟩
  · rintro ⟨digits, some_digit, rfl, rfl⟩
    have all : (digits.map digitChar).all Char.isDigit = true := by
      simp [digitChar_isDigit]
    rw [all, foldl_digits]
    simp [some_digit]

theorem numeral?_eq_some_iff {text : List Char} {n : Nat} :
    numeral? text = some n ↔ Denotes text n := by
  have plus : ∀ digit, digitChar digit ≠ '+' := by decide
  unfold numeral? Denotes
  split
  · rename_i digits
    rw [digits?_eq_some_iff]
    refine exists_congr fun found => and_congr_right fun some_digit => and_congr_right fun _ => ?_
    refine ⟨fun same => Or.inr (by rw [same]), ?_⟩
    rintro (same | same)
    · cases found with
      | nil => exact absurd rfl some_digit
      | cons digit rest => exact absurd (List.cons.inj same).1.symm (plus digit)
    · exact (List.cons.inj same).2
  · rename_i unsigned
    rw [digits?_eq_some_iff]
    refine exists_congr fun found => and_congr_right fun _ => and_congr_right fun _ => ?_
    exact ⟨Or.inl, fun form => form.resolve_right fun signed => unsigned _ signed⟩

theorem Denotes.unique {text : List Char} {n m : Nat} (denotes : Denotes text n)
    (also : Denotes text m) : n = m :=
  Option.some.inj ((numeral?_eq_some_iff.mpr denotes).symm.trans (numeral?_eq_some_iff.mpr also))

end Text

namespace Table.Params

open Text

/-! ## One argument -/

def keyText (argument : String) : String :=
  String.ofList (trim (argument.toList.takeWhile (· != '=')))

def valueText (argument : String) : List Char :=
  trim (argument.toList.dropWhile (· != '=')).tail

structure Keyed (argument : String) : Prop where
  equals : '=' ∈ argument.toList
  filled : keyText argument ≠ ""

inductive Setting where
  | filename (path : String)
  | data (text : String)
  | optionsUsed (options : String)
  | maxColumns (limit : Nat)
  | testFlags (flags : UInt32)
  deriving DecidableEq

def Setting.key : Setting → String
  | .filename _ => "filename"
  | .data _ => "data"
  | .optionsUsed _ => "options_used"
  | .maxColumns _ => "max_columns"
  | .testFlags _ => "testflags"

def Setting.SaidBy (value : List Char) : Setting → Prop
  | .filename text | .data text | .optionsUsed text => text = String.ofList value
  | .maxColumns limit => Denotes value limit ∧ 1 ≤ limit ∧ limit ≤ columnsLimit
  | .testFlags flags => Denotes value flags.toNat

/-- What an argument sets: its key tells what, and its value, once a layer of quoting is off, tells
how. -/
structure Sets (argument : String) (setting : Setting) : Prop where
  equals : '=' ∈ argument.toList
  key : keyText argument = setting.key
  value : ∃ value, dequote (valueText argument) = some value ∧ setting.SaidBy value

/-- A value that begins or ends with a character of several bytes. -/
def HasWideEnd (value : List Char) : Prop :=
  ∃ c, (c ∈ value.head? ∨ c ∈ value.getLast?) ∧ 128 ≤ c.toNat

theorem Sets.keyed {argument : String} {setting : Setting} (sets : Sets argument setting) :
    Keyed argument := by
  refine ⟨sets.equals, ?_⟩
  rw [sets.key]
  cases setting <;> simp [Setting.key]

theorem Setting.SaidBy.unique {value : List Char} {setting other : Setting}
    (said : setting.SaidBy value) (also : other.SaidBy value) (same : setting.key = other.key) :
    setting = other := by
  cases setting <;> cases other <;> simp only [Setting.key, String.reduceEq] at same <;>
    simp only [Setting.SaidBy] at said also
  case filename | data | optionsUsed => rw [said, also]
  case maxColumns => rw [said.1.unique also.1]
  case testFlags => rw [UInt32.toNat_inj.mp (said.unique also)]

theorem Sets.unique {argument : String} {setting other : Setting} (sets : Sets argument setting)
    (also : Sets argument other) : setting = other := by
  obtain ⟨value, read, said⟩ := sets.value
  obtain ⟨again, reread, saidToo⟩ := also.value
  cases read.symm.trans reread
  exact said.unique saidToo (sets.key.symm.trans also.key)

theorem splitAtEquals_eq (text : List Char) :
    splitAtEquals text =
      if '=' ∈ text then some (text.takeWhile (· != '='), (text.dropWhile (· != '=')).tail)
      else none := by
  unfold splitAtEquals
  rw [List.span_eq_takeWhile_dropWhile]
  cases behind : text.dropWhile (· != '=') with
  | nil =>
    have none : '=' ∉ text := fun member => by
      simpa using List.dropWhile_eq_nil_iff.mp behind '=' member
    rw [if_neg none]
  | cons c value =>
    have member : '=' ∈ text := by
      by_contra none
      have plain : ∀ c ∈ text, (c != '=') = true := fun c member =>
        bne_iff_ne.mpr fun same => none (same ▸ member)
      rw [List.dropWhile_eq_nil_iff.mpr plain] at behind
      cases behind
    rw [if_pos member]
    rfl

theorem split_of_keyed {argument : String} (keyed : Keyed argument) :
    split argument =
      match dequote (valueText argument) with
      | none => .error .abandoned
      | some value => .ok (keyText argument, String.ofList value) := by
  have filled : ¬ (trim (argument.toList.takeWhile (· != '='))).isEmpty = true := fun empty =>
    keyed.filled (by rw [keyText, List.isEmpty_iff.mp empty])
  unfold split
  rw [splitAtEquals_eq, if_pos keyed.equals]
  dsimp only
  rw [if_neg filled]
  rfl

theorem split_of_not_keyed {argument : String} (unkeyed : ¬ Keyed argument) :
    split argument = .error (.failed (.badParameter argument)) := by
  unfold split
  rw [splitAtEquals_eq]
  by_cases equals : '=' ∈ argument.toList
  · have empty : (trim (argument.toList.takeWhile (· != '='))).isEmpty = true := by
      by_contra filled
      refine unkeyed ⟨equals, fun none => filled ?_⟩
      rw [List.isEmpty_iff, ← String.toList_ofList (l := trim _)]
      exact congrArg String.toList none
    rw [if_pos equals]
    dsimp only
    rw [if_pos empty]
  · rw [if_neg equals]

theorem dequote_eq_none_iff {value : List Char} : dequote value = none ↔ HasWideEnd value := by
  cases value with
  | nil => simp [dequote, HasWideEnd]
  | cons first rest =>
    have last : (first :: rest).getLast? = some (rest.getLastD first) := by
      rw [List.getLast?_cons, List.getLastD_eq_getLast?]
    have ends : HasWideEnd (first :: rest) ↔
        128 ≤ first.toNat ∨ 128 ≤ (rest.getLastD first).toNat := by
      simp [HasWideEnd, last, or_and_right, exists_or]
    rw [ends]
    unfold dequote isSingleByte
    dsimp only
    split
    · rename_i wide
      simp only [Bool.or_eq_true, Bool.not_eq_true', decide_eq_false_iff_not, Nat.not_lt] at wide
      exact iff_of_true rfl wide
    · rename_i single
      simp only [Bool.or_eq_true, Bool.not_eq_true', decide_eq_false_iff_not, Nat.not_lt] at single
      refine iff_of_false ?_ single
      repeat' split
      all_goals simp

instance (value : List Char) : Decidable (HasWideEnd value) :=
  decidable_of_iff _ dequote_eq_none_iff

theorem split_eq_ok_iff {argument key value : String} :
    split argument = .ok (key, value) ↔
      Keyed argument ∧ key = keyText argument ∧
        dequote (valueText argument) = some value.toList := by
  by_cases keyed : Keyed argument
  · rw [split_of_keyed keyed]
    cases read : dequote (valueText argument) with
    | none => simp
    | some found =>
      simp only [Except.ok.injEq, Prod.mk.injEq, keyed, true_and, Option.some.injEq]
      have whole : value = String.ofList found ↔ found = value.toList := by
        rw [← String.toList_inj, String.toList_ofList, eq_comm]
      rw [eq_comm (a := key), eq_comm (b := value), whole]
  · simp [split_of_not_keyed keyed, keyed]

theorem split_eq_abandoned_iff {argument : String} :
    split argument = .error .abandoned ↔ Keyed argument ∧ HasWideEnd (valueText argument) := by
  rw [← dequote_eq_none_iff]
  by_cases keyed : Keyed argument
  · rw [split_of_keyed keyed]
    cases dequote (valueText argument) <;> simp [keyed]
  · simp [split_of_not_keyed keyed, keyed]

theorem parseMaxColumns_eq_ok_iff {value : String} {limit : Nat} :
    parseMaxColumns value = .ok limit ↔
      Denotes value.toList limit ∧ 1 ≤ limit ∧ limit ≤ columnsLimit := by
  rw [← numeral?_eq_some_iff]
  unfold parseMaxColumns
  cases numeral? value.toList with
  | none => simp
  | some n =>
    simp only [Bool.and_eq_true, decide_eq_true_eq, Option.some.injEq]
    split
    · rename_i within
      simp only [Except.ok.injEq]
      exact ⟨fun same => ⟨same, same ▸ within⟩, And.left⟩
    · rename_i beyond
      simp only [reduceCtorEq, false_iff]
      rintro ⟨rfl, within⟩
      exact beyond within

theorem parseTestFlags_eq_ok_iff {argument value : String} {flags : UInt32} :
    parseTestFlags argument value = .ok flags ↔ Denotes value.toList flags.toNat := by
  rw [← numeral?_eq_some_iff]
  unfold parseTestFlags
  cases numeral? value.toList with
  | none => simp
  | some n =>
    simp only [Option.some.injEq]
    split
    · rename_i small
      simp only [Except.ok.injEq, ← UInt32.toNat_inj, UInt32.toNat_ofNat_of_lt' small]
    · rename_i large
      simp only [reduceCtorEq, false_iff]
      rintro rfl
      exact large flags.toNat_lt

/-! ## Taking arguments one by one -/

namespace Reading

def Holds (r : Reading) : Setting → Prop
  | .filename path => r.params.filename = some path
  | .data text => r.params.data = some text
  | .optionsUsed options => r.params.optionsUsed = some options
  | .maxColumns limit => r.seenMaxColumns = true ∧ r.params.maxColumns = limit
  | .testFlags flags => r.seenTestFlags = true ∧ r.params.testFlags = flags

def set (r : Reading) : Setting → Reading
  | .filename path => { r with params.filename := some path }
  | .data text => { r with params.data := some text }
  | .optionsUsed options => { r with params.optionsUsed := some options }
  | .maxColumns limit => { r with params.maxColumns := limit, seenMaxColumns := true }
  | .testFlags flags => { r with params.testFlags := flags, seenTestFlags := true }

def Lacks (r : Reading) (key : String) : Prop := ∀ setting, r.Holds setting → setting.key ≠ key

/-- What was not seen is as it is without arguments. -/
structure AtDefaults (r : Reading) : Prop where
  maxColumns : r.seenMaxColumns = false → r.params.maxColumns = columnsLimit
  testFlags : r.seenTestFlags = false → r.params.testFlags = 0

variable {r r' : Reading} {argument : String} {arguments : List String}

theorem lacks_key {setting : Setting} :
    r.Lacks setting.key ↔
      match setting with
      | .filename _ => r.params.filename = none
      | .data _ => r.params.data = none
      | .optionsUsed _ => r.params.optionsUsed = none
      | .maxColumns _ => r.seenMaxColumns = false
      | .testFlags _ => r.seenTestFlags = false := by
  constructor
  · intro lacks
    cases setting with
    | filename =>
      exact Option.eq_none_iff_forall_ne_some.mpr fun path holds => lacks (.filename path) holds rfl
    | data =>
      exact Option.eq_none_iff_forall_ne_some.mpr fun text holds => lacks (.data text) holds rfl
    | optionsUsed =>
      exact Option.eq_none_iff_forall_ne_some.mpr fun options holds =>
        lacks (.optionsUsed options) holds rfl
    | maxColumns =>
      exact Bool.eq_false_of_not_eq_true fun seen => lacks (.maxColumns _) ⟨seen, rfl⟩ rfl
    | testFlags =>
      exact Bool.eq_false_of_not_eq_true fun seen => lacks (.testFlags _) ⟨seen, rfl⟩ rfl
  · intro unset other holds same
    cases setting <;> cases other <;> simp_all [Setting.key, Holds]

@[simp] theorem holds_set {setting : Setting} (new : r.Lacks setting.key) (other : Setting) :
    (r.set setting).Holds other ↔ r.Holds other ∨ other = setting := by
  have unset := lacks_key.mp new
  cases setting <;> cases other <;> simp_all [Holds, set] <;> exact eq_comm

theorem AtDefaults.set (defaults : r.AtDefaults) (setting : Setting) :
    (r.set setting).AtDefaults := by
  cases setting with
  | filename | data | optionsUsed => exact { defaults with }
  | maxColumns => exact { defaults with maxColumns := fun unseen => by cases unseen }
  | testFlags => exact { defaults with testFlags := fun unseen => by cases unseen }

/-- An argument is taken if it sets something that was not set before. -/
theorem add_eq_ok_iff_sets :
    r.add argument = .ok r' ↔
      ∃ setting, Sets argument setting ∧ r.Lacks setting.key ∧ r' = r.set setting := by
  rw [add_eq_ok_iff]
  constructor
  · rintro ⟨key, value, splits, adds⟩
    obtain ⟨keyed, named, read⟩ := split_eq_ok_iff.mp splits
    have sets : ∀ setting, setting.key = key → setting.SaidBy value.toList →
        Sets argument setting := fun setting same said =>
      ⟨keyed.equals, named.symm.trans same.symm, value.toList, read, said⟩
    have whole : value = String.ofList value.toList := String.ofList_toList.symm
    cases adds with
    | filename new => exact ⟨.filename value, sets _ rfl whole, lacks_key.mpr new, rfl⟩
    | data new => exact ⟨.data value, sets _ rfl whole, lacks_key.mpr new, rfl⟩
    | optionsUsed new => exact ⟨.optionsUsed value, sets _ rfl whole, lacks_key.mpr new, rfl⟩
    | maxColumns new parsed =>
      exact ⟨.maxColumns _, sets _ rfl (parseMaxColumns_eq_ok_iff.mp parsed), lacks_key.mpr new,
        rfl⟩
    | testFlags new parsed =>
      exact ⟨.testFlags _, sets _ rfl (parseTestFlags_eq_ok_iff.mp parsed), lacks_key.mpr new, rfl⟩
  · rintro ⟨setting, sets, new, rfl⟩
    obtain ⟨value, read, said⟩ := sets.value
    have splits : split argument = .ok (setting.key, String.ofList value) :=
      split_eq_ok_iff.mpr ⟨sets.keyed, sets.key.symm, by rw [read, String.toList_ofList]⟩
    refine ⟨_, _, splits, ?_⟩
    have new := lacks_key.mp new
    rw [← String.toList_ofList (l := value)] at said
    cases setting with
    | filename | data | optionsUsed =>
      rw [Setting.SaidBy, String.ofList_toList] at said
      rw [said]
      constructor
      exact new
    | maxColumns => exact .maxColumns new (parseMaxColumns_eq_ok_iff.mpr said)
    | testFlags => exact .testFlags new (parseTestFlags_eq_ok_iff.mpr said)

theorem holds_add (added : r.add argument = .ok r') (setting : Setting) :
    r'.Holds setting ↔ r.Holds setting ∨ Sets argument setting := by
  obtain ⟨chosen, sets, new, rfl⟩ := add_eq_ok_iff_sets.mp added
  rw [holds_set new]
  exact or_congr_right ⟨fun same => same ▸ sets, fun also => also.unique sets⟩

theorem lacks_add (added : r.add argument = .ok r') (key : String) :
    r'.Lacks key ↔ r.Lacks key ∧ key ≠ keyText argument := by
  obtain ⟨chosen, sets, -⟩ := add_eq_ok_iff_sets.mp added
  constructor
  · refine fun lacks => ⟨fun setting holds => lacks setting ?_, fun same => lacks chosen ?_ ?_⟩
    · exact (holds_add added setting).mpr (Or.inl holds)
    · exact (holds_add added chosen).mpr (Or.inr sets)
    · rw [same, sets.key]
  · rintro ⟨lacks, apart⟩ setting holds
    rcases (holds_add added setting).mp holds with before | now
    · exact lacks setting before
    · rw [← now.key]
      exact apart.symm

theorem AtDefaults.add (defaults : r.AtDefaults) (added : r.add argument = .ok r') :
    r'.AtDefaults := by
  obtain ⟨setting, -, -, rfl⟩ := add_eq_ok_iff_sets.mp added
  exact defaults.set setting

end Reading

/-! ## Lists of arguments -/

def Given (arguments : List String) (setting : Setting) : Prop :=
  ∃ argument ∈ arguments, Sets argument setting

/-- Each argument sets something, and no key is given twice. -/
structure InOrder (arguments : List String) : Prop where
  sets : ∀ argument ∈ arguments, ∃ setting, Sets argument setting
  distinct : (arguments.map keyText).Nodup

@[simp] theorem given_cons {argument : String} {rest : List String} {setting : Setting} :
    Given (argument :: rest) setting ↔ Sets argument setting ∨ Given rest setting := by
  simp [Given]

theorem inOrder_cons {argument : String} {rest : List String} :
    InOrder (argument :: rest) ↔
      (∃ setting, Sets argument setting) ∧ (∀ other ∈ rest, keyText other ≠ keyText argument) ∧
        InOrder rest := by
  constructor
  · intro order
    have distinct := List.nodup_cons.mp order.distinct
    refine ⟨order.sets _ List.mem_cons_self, fun other member same => distinct.1 ?_, ?_, distinct.2⟩
    · exact List.mem_map.mpr ⟨other, member, same⟩
    · exact fun other member => order.sets other (List.mem_cons_of_mem _ member)
  · rintro ⟨sets, apart, order⟩
    refine ⟨List.forall_mem_cons.mpr ⟨sets, order.sets⟩, List.nodup_cons.mpr ⟨?_, order.distinct⟩⟩
    rintro member
    obtain ⟨other, later, same⟩ := List.mem_map.mp member
    exact apart other later same

namespace Reading

variable {r r' : Reading} {arguments : List String}

theorem holds_foldlM (taken : arguments.foldlM add r = .ok r') (setting : Setting) :
    r'.Holds setting ↔ r.Holds setting ∨ Given arguments setting := by
  induction arguments generalizing r with
  | nil =>
    cases taken
    simp [Given]
  | cons argument rest ih =>
    rw [List.foldlM_cons] at taken
    obtain ⟨between, added, later⟩ := bind_eq_ok_iff.mp taken
    simp [ih later, holds_add added, or_assoc]

theorem AtDefaults.foldlM (defaults : r.AtDefaults)
    (taken : arguments.foldlM Reading.add r = .ok r') :
    r'.AtDefaults := by
  induction arguments generalizing r with
  | nil =>
    cases taken
    exact defaults
  | cons argument rest ih =>
    rw [List.foldlM_cons] at taken
    obtain ⟨between, added, later⟩ := bind_eq_ok_iff.mp taken
    exact ih (defaults.add added) later

/-- Arguments are taken exactly if they are in order and none of their keys was set before. -/
theorem foldlM_taken_iff :
    (∃ last, arguments.foldlM add r = .ok last) ↔
      InOrder arguments ∧ ∀ argument ∈ arguments, r.Lacks (keyText argument) := by
  induction arguments generalizing r with
  | nil => exact iff_of_true ⟨r, rfl⟩ ⟨⟨by simp, by simp⟩, by simp⟩
  | cons argument rest ih =>
    rw [inOrder_cons, List.forall_mem_cons]
    constructor
    · rintro ⟨last, taken⟩
      rw [List.foldlM_cons] at taken
      obtain ⟨between, added, later⟩ := bind_eq_ok_iff.mp taken
      obtain ⟨setting, sets, new, -⟩ := add_eq_ok_iff_sets.mp added
      obtain ⟨order, lacks⟩ := ih.mp ⟨last, later⟩
      have apart := fun other member => (lacks_add added _).mp (lacks other member)
      exact ⟨⟨⟨setting, sets⟩, fun other member => (apart other member).2, order⟩,
        sets.key ▸ new, fun other member => (apart other member).1⟩
    · rintro ⟨⟨⟨setting, sets⟩, apart, order⟩, new, lacks⟩
      have added : r.add argument = .ok (r.set setting) :=
        add_eq_ok_iff_sets.mpr ⟨setting, sets, sets.key ▸ new, rfl⟩
      obtain ⟨last, later⟩ := ih.mpr ⟨order, fun other member =>
        (lacks_add added _).mpr ⟨lacks other member, apart other member⟩⟩
      refine ⟨last, ?_⟩
      rw [List.foldlM_cons]
      exact bind_eq_ok_iff.mpr ⟨_, added, later⟩

theorem lacks_initial (key : String) : ({} : Reading).Lacks key := by
  intro setting holds
  cases setting <;> simp [Holds] at holds

theorem foldlM_initial_taken_iff :
    (∃ last, arguments.foldlM add {} = .ok last) ↔ InOrder arguments := by
  rw [foldlM_taken_iff]
  exact and_iff_left fun argument _ => lacks_initial _

end Reading

end Table.Params

end Tabular
