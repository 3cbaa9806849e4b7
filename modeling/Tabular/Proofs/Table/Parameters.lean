import Mathlib.Data.List.TakeDrop
import Tabular.Table.Params

/-!
Parameters that are written in quotes or brackets. Any text can be given as a value, with any blanks
around it and around its key, and it is read as it is. What was read from the other arguments
does not depend on a parameter that is kept for others.
-/
namespace Tabular

namespace Text

structure Blanks where
  text : String
  blank : text.toList.all isBlank = true

theorem Blanks.isBlank_of_mem (blanks : Blanks) :
    ∀ c ∈ blanks.text.toList, isBlank c = true := List.all_eq_true.mp blanks.blank

theorem Blanks.not_mem (blanks : Blanks) {c : Char} (ink : isBlank c = false) :
    c ∉ blanks.text.toList := fun member => by
  rw [blanks.isBlank_of_mem c member] at ink
  cases ink

theorem dropWhile_of_head {text : List Char} (begins : ∀ c ∈ text.head?, isBlank c = false) :
    text.dropWhile isBlank = text := by
  cases text with
  | nil => rfl
  | cons c rest => exact List.dropWhile_cons_of_neg (Bool.not_eq_true _ ▸ begins c rfl)

theorem trim_between (before after : Blanks) (text : List Char)
    (begins : ∀ c ∈ text.head?, isBlank c = false)
    (ends : ∀ c ∈ text.getLast?, isBlank c = false) :
    trim (before.text.toList ++ (text ++ after.text.toList)) = text := by
  have blank : ∀ c ∈ after.text.toList.reverse, isBlank c = true := fun c member =>
    after.isBlank_of_mem c (List.mem_reverse.mp member)
  unfold trim
  rw [List.dropWhile_append_of_pos before.isBlank_of_mem]
  cases text with
  | nil =>
    rw [List.nil_append, ← List.append_nil after.text.toList,
      List.dropWhile_append_of_pos after.isBlank_of_mem]
    rfl
  | cons c rest =>
    have kept : (c :: rest ++ after.text.toList).dropWhile isBlank =
        c :: rest ++ after.text.toList := dropWhile_of_head begins
    rw [kept, List.reverse_append, List.dropWhile_append_of_pos blank, dropWhile_of_head,
      List.reverse_reverse]
    rwa [List.head?_reverse]

end Text

namespace Table.Params

open Text

/-! ## Values in quotes -/

theorem splitAtEquals_append {key : List Char} (plain : '=' ∉ key) (value : List Char) :
    splitAtEquals (key ++ '=' :: value) = some (key, value) := by
  have before : ∀ c ∈ key, (c != '=') = true := fun c member =>
    bne_iff_ne.mpr fun same => plain (same ▸ member)
  unfold splitAtEquals
  rw [List.span_eq_takeWhile_dropWhile, List.takeWhile_append_of_pos before,
    List.dropWhile_append_of_pos before, List.takeWhile_cons_of_neg (by decide),
    List.dropWhile_cons_of_neg (by decide), List.append_nil]

def doubledIn (quote c : Char) : List Char := if c = quote then [c, c] else [c]

theorem undoubleInto_other {quote c : Char} (other : c ≠ quote) (before rest : List Char) :
    undoubleInto quote before (c :: rest) = undoubleInto quote (c :: before) rest := by
  cases rest with
  | nil =>
    unfold undoubleInto
    rw [List.reverse_cons, List.append_nil]
  | cons next rest =>
    rw [undoubleInto, if_neg]
    simp [other]

theorem undoubleInto_doubled (quote : Char) (before text : List Char) :
    undoubleInto quote before (text.flatMap (doubledIn quote)) = before.reverse ++ text := by
  induction text generalizing before with
  | nil => rfl
  | cons c rest ih =>
    rw [List.flatMap_cons, doubledIn]
    split
    · rename_i same
      rw [List.cons_append, List.cons_append, List.nil_append, undoubleInto, if_pos (by simp [same]),
        ih, List.reverse_cons, List.append_assoc, same]
      rfl
    · rename_i other
      rw [List.cons_append, List.nil_append, undoubleInto_other other, ih, List.reverse_cons,
        List.append_assoc]
      rfl

theorem dequote_between {first last : Char} (opens : isSingleByte first = true)
    (closes : isSingleByte last = true) (inside : List Char) :
    dequote (first :: (inside ++ [last])) =
      if isQuoted first last then some (undouble first inside)
      else if isBracketed first last then some inside
      else some (first :: (inside ++ [last])) := by
  unfold dequote
  simp [opens, closes]

/-- The ways to write a value so that it is read as it is. -/
inductive Enclosure where
  /-- In quotes of one kind, with each such quote in the value written twice. -/
  | quotes (quote : Char) (known : quote ∈ ['\'', '"', '`'])
  | brackets

namespace Enclosure

def write : Enclosure → String → String
  | .quotes quote _, value =>
    String.ofList (quote :: (value.toList.flatMap (doubledIn quote) ++ [quote]))
  | .brackets, value => String.ofList ('[' :: (value.toList ++ [']']))

theorem write_between (e : Enclosure) (value : String) :
    ∃ first last inside, (e.write value).toList = first :: (inside ++ [last]) ∧
      isBlank first = false ∧ isBlank last = false ∧
      dequote (first :: (inside ++ [last])) = some value.toList := by
  cases e with
  | quotes quote known =>
    refine ⟨quote, quote, _, String.toList_ofList, ?_⟩
    have read := undoubleInto_doubled quote [] value.toList
    have kinds : isBlank quote = false ∧ isSingleByte quote = true ∧ isQuoted quote quote = true := by
      simp only [List.mem_cons, List.not_mem_nil, or_false] at known
      rcases known with rfl | rfl | rfl <;> decide
    obtain ⟨ink, single, quoted⟩ := kinds
    refine ⟨ink, ink, ?_⟩
    rw [dequote_between single single, if_pos quoted, undouble, read]
    rfl
  | brackets =>
    refine ⟨'[', ']', _, String.toList_ofList, by decide, by decide, ?_⟩
    rw [dequote_between (by decide) (by decide)]
    rfl

end Enclosure

/-- The blanks around the parts of an argument. -/
structure Spacing where
  beforeKey : Blanks
  behindKey : Blanks
  beforeValue : Blanks
  behindValue : Blanks

def Spacing.argument (s : Spacing) (key value : String) : String :=
  s.beforeKey.text ++ key ++ s.behindKey.text ++ "=" ++ s.beforeValue.text ++ value ++
    s.behindValue.text

theorem split_argument (s : Spacing) {key : String} (filled : key.toList ≠ [])
    (plain : key.toList.all (fun c => !isBlank c && c != '=') = true) (e : Enclosure)
    (value : String) : split (s.argument key (e.write value)) = .ok (key, value) := by
  have plain : ∀ c ∈ key.toList, isBlank c = false ∧ c ≠ '=' := by
    simpa using plain
  obtain ⟨first, last, inside, written, opens, closes, read⟩ := e.write_between value
  have parts : (s.argument key (e.write value)).toList =
      (s.beforeKey.text.toList ++ (key.toList ++ s.behindKey.text.toList)) ++ '=' ::
        (s.beforeValue.text.toList ++ ((first :: (inside ++ [last])) ++
          s.behindValue.text.toList)) := by
    unfold Spacing.argument
    simp only [String.toList_append, written, List.append_assoc]
    rfl
  have front : '=' ∉ s.beforeKey.text.toList ++ (key.toList ++ s.behindKey.text.toList) := by
    simp only [List.mem_append, not_or]
    have ink : isBlank '=' = false := by decide
    exact ⟨Blanks.not_mem _ ink, fun member => (plain _ member).2 rfl, Blanks.not_mem _ ink⟩
  have keyed := trim_between s.beforeKey s.behindKey key.toList
    (fun c member => (plain c (List.mem_of_mem_head? member)).1)
    fun c member => (plain c (List.mem_of_mem_getLast? member)).1
  have valued := trim_between s.beforeValue s.behindValue (first :: (inside ++ [last]))
    (fun c member => Option.some.inj member ▸ opens) (by
      rw [← List.cons_append, List.getLast?_concat]
      exact fun c member => Option.some.inj member ▸ closes)
  unfold split
  rw [parts, splitAtEquals_append front]
  dsimp only
  rw [keyed, valued, if_neg (by rwa [List.isEmpty_iff]), read]
  simp only [String.ofList_toList]

/-! ## Taking arguments -/

theorem bind_eq_ok_iff {α β : Type} {first : Except Halt α} {next : α → Except Halt β} {b : β} :
    (first >>= next) = .ok b ↔ ∃ a, first = .ok a ∧ next a = .ok b := by
  cases first <;> simp [bind, Except.bind]

namespace Reading

/-- What an argument adds to what was taken so far. -/
inductive Adds (r : Reading) (argument : String) : String → String → Reading → Prop where
  | filename {value : String} (new : r.params.filename = none) :
      Adds r argument "filename" value { r with params.filename := some value }
  | data {value : String} (new : r.params.data = none) :
      Adds r argument "data" value { r with params.data := some value }
  | optionsUsed {value : String} (new : r.params.optionsUsed = none) :
      Adds r argument "options_used" value { r with params.optionsUsed := some value }
  | maxColumns {value : String} {n : Nat} (new : r.seenMaxColumns = false)
      (parsed : parseMaxColumns value = .ok n) :
      Adds r argument "max_columns" value { r with params.maxColumns := n, seenMaxColumns := true }
  | testFlags {value : String} {flags : UInt32} (new : r.seenTestFlags = false)
      (parsed : parseTestFlags argument value = .ok flags) :
      Adds r argument "testflags" value { r with params.testFlags := flags, seenTestFlags := true }

variable {r r' : Reading} {argument : String}

@[simp] theorem once_eq_ok {α : Type} {seen : Bool} {key : String} {value : Except Halt α} {a : α} :
    once seen key value = .ok a ↔ seen = false ∧ value = .ok a := by
  cases seen <;> simp [once]

theorem add_eq_ok_iff :
    r.add argument = .ok r' ↔
      ∃ key value, split argument = .ok (key, value) ∧ r.Adds argument key value r' := by
  unfold add
  rcases splits : split argument with halt | ⟨key, value⟩
  · simp [bind, Except.bind]
  simp only [bind, Except.bind]
  constructor
  · intro added
    refine ⟨key, value, rfl, ?_⟩
    split at added
    · obtain ⟨new, ⟨rfl⟩⟩ := once_eq_ok.mp added
      exact .filename (Option.not_isSome_iff_eq_none.mp (Bool.not_eq_true _ ▸ new))
    · obtain ⟨new, ⟨rfl⟩⟩ := once_eq_ok.mp added
      exact .data (Option.not_isSome_iff_eq_none.mp (Bool.not_eq_true _ ▸ new))
    · obtain ⟨new, ⟨rfl⟩⟩ := once_eq_ok.mp added
      exact .optionsUsed (Option.not_isSome_iff_eq_none.mp (Bool.not_eq_true _ ▸ new))
    · obtain ⟨new, taken⟩ := once_eq_ok.mp added
      split at taken
      · cases taken
      · rename_i n parsed
        cases taken
        exact .maxColumns new parsed
    · obtain ⟨new, taken⟩ := once_eq_ok.mp added
      split at taken
      · cases taken
      · rename_i flags parsed
        cases taken
        exact .testFlags new parsed
    · cases added
  · rintro ⟨_, _, ⟨rfl, rfl⟩, adds⟩
    cases adds with
    | filename new | data new | optionsUsed new => simp [once, new]
    | maxColumns new parsed | testFlags new parsed => simp [once, new, parsed]

/-- What was taken, with a parameter that is kept for others. -/
def withOptions (r : Reading) (options : String) : Reading :=
  { r with params.optionsUsed := some options }

theorem Adds.withOptions {key value : String} (adds : r.Adds argument key value r')
    (without : r'.params.optionsUsed = none) (options : String) :
    r.params.optionsUsed = none ∧
      (r.withOptions options).Adds argument key value (r'.withOptions options) := by
  cases adds with
  | filename new => exact ⟨without, .filename new⟩
  | data new => exact ⟨without, .data new⟩
  | optionsUsed new => cases without
  | maxColumns new parsed => exact ⟨without, .maxColumns new parsed⟩
  | testFlags new parsed => exact ⟨without, .testFlags new parsed⟩

theorem add_withOptions (added : r.add argument = .ok r')
    (without : r'.params.optionsUsed = none) (options : String) :
    r.params.optionsUsed = none ∧
      (r.withOptions options).add argument = .ok (r'.withOptions options) := by
  obtain ⟨key, value, splits, adds⟩ := add_eq_ok_iff.mp added
  obtain ⟨before, beside⟩ := adds.withOptions without options
  exact ⟨before, add_eq_ok_iff.mpr ⟨key, value, splits, beside⟩⟩

theorem foldlM_withOptions {arguments : List String} (taken : arguments.foldlM add r = .ok r')
    (without : r'.params.optionsUsed = none) (options : String) :
    r.params.optionsUsed = none ∧
      arguments.foldlM add (r.withOptions options) = .ok (r'.withOptions options) := by
  induction arguments generalizing r with
  | nil =>
    cases taken
    exact ⟨without, rfl⟩
  | cons argument rest ih =>
    rw [List.foldlM_cons] at taken ⊢
    obtain ⟨between, first, later⟩ := bind_eq_ok_iff.mp taken
    obtain ⟨none, beside⟩ := ih later
    obtain ⟨before, first⟩ := add_withOptions first none options
    rw [first]
    exact ⟨before, beside⟩

end Reading

/-- There is one source, and if it is a file then it has a name. -/
def NamesOneSource (p : Params) : Prop :=
  match p.filename, p.data with
  | some path, none => path ≠ ""
  | none, some _ => True
  | _, _ => False

theorem Reading.complete_eq_ok_iff {r : Reading} {p : Params} :
    r.complete = .ok p ↔ r.params = p ∧ r.params.NamesOneSource := by
  unfold Reading.complete NamesOneSource
  cases r.params.filename with
  | none => cases r.params.data <;> simp
  | some path =>
    cases r.params.data with
    | none => by_cases unnamed : path = "" <;> simp [unnamed]
    | some text => simp

theorem parse_eq_ok_iff {arguments : List String} {p : Params} :
    parse arguments = .ok p ↔
      ∃ r : Reading, arguments.foldlM Reading.add {} = .ok r ∧ r.params = p ∧ p.NamesOneSource := by
  unfold parse
  rw [bind_eq_ok_iff]
  refine exists_congr fun r => and_congr_right fun _ => ?_
  rw [Reading.complete_eq_ok_iff]
  exact and_congr_right fun same => by rw [same]

theorem parse_insert_options {argument value : String}
    (splits : split argument = .ok ("options_used", value)) {before after : List String} {p : Params}
    (parsed : parse (before ++ after) = .ok p) (without : p.optionsUsed = none) :
    parse (before ++ argument :: after) = .ok { p with optionsUsed := some value } := by
  obtain ⟨last, taken, rfl, source⟩ := parse_eq_ok_iff.mp parsed
  rw [List.foldlM_append] at taken
  obtain ⟨between, first, rest⟩ := bind_eq_ok_iff.mp taken
  obtain ⟨none, beside⟩ := Reading.foldlM_withOptions rest without value
  have added : between.add argument = .ok (between.withOptions value) :=
    Reading.add_eq_ok_iff.mpr ⟨_, _, splits, .optionsUsed none⟩
  refine parse_eq_ok_iff.mpr ⟨last.withOptions value, ?_, rfl, source⟩
  rw [List.foldlM_append]
  refine bind_eq_ok_iff.mpr ⟨between, first, ?_⟩
  rw [List.foldlM_cons]
  exact bind_eq_ok_iff.mpr ⟨_, added, beside⟩

/-- A value in quotes or brackets is read as the text it encloses, whatever that text and whatever
the blanks around it and around its key: as the only argument if it is the data, and, where it is kept
for others, among any arguments that are in order without it. -/
theorem parse_enclosed (s : Spacing) (e : Enclosure) (value : String) :
    parse [s.argument "data" (e.write value)] = .ok { data := some value } ∧
      ∀ before after p, parse (before ++ after) = .ok p → p.optionsUsed = none →
        parse (before ++ s.argument "options_used" (e.write value) :: after) =
          .ok { p with optionsUsed := some value } := by
  have data : split (s.argument "data" (e.write value)) = .ok ("data", value) :=
    split_argument s (by decide) (by decide) e value
  have options : split (s.argument "options_used" (e.write value)) = .ok ("options_used", value) :=
    split_argument s (by decide) (by decide) e value
  refine ⟨?_, fun before after p parsed without => parse_insert_options options parsed without⟩
  have added : ({} : Reading).add (s.argument "data" (e.write value)) =
      .ok { params := { data := some value } } :=
    Reading.add_eq_ok_iff.mpr ⟨_, _, data, .data rfl⟩
  refine parse_eq_ok_iff.mpr ⟨{ params := { data := some value } }, ?_, rfl, trivial⟩
  rw [List.foldlM_cons, added]
  rfl

/-- The value begins and ends with a quote, and inside it looks like an argument with a value in
brackets. -/
theorem parse_enclosed_quotes :
    parse ["data=\u2003'''x=[''y''] '''\n"] = .ok { data := some "'x=['y'] '" } ∧
      parse ["filename=t.csv", "\toptions_used\u00a0=\u2003'''x=[''y''] '''\n",
          "max_columns=3"] =
        .ok { filename := some "t.csv", optionsUsed := some "'x=['y'] '", maxColumns := 3 } := by
  let s : Spacing :=
    ⟨⟨"\t", by decide⟩, ⟨"\u00a0", by decide⟩, ⟨"\u2003", by decide⟩, ⟨"\n", by decide⟩⟩
  let none : Blanks := ⟨"", rfl⟩
  let bare : Spacing := { s with beforeKey := none, behindKey := none }
  let e : Enclosure := .quotes '\'' (by decide)
  have written : bare.argument "data" (e.write "'x=['y'] '") =
        "data=\u2003'''x=[''y''] '''\n" ∧
      s.argument "options_used" (e.write "'x=['y'] '") =
        "\toptions_used\u00a0=\u2003'''x=[''y''] '''\n" := by
    decide +kernel
  obtain ⟨data, -⟩ := parse_enclosed bare e "'x=['y'] '"
  obtain ⟨-, options⟩ := parse_enclosed s e "'x=['y'] '"
  rw [written.1] at data
  rw [written.2] at options
  exact ⟨data, options ["filename=t.csv"] ["max_columns=3"]
    { filename := some "t.csv", maxColumns := 3 } (by decide +kernel) rfl⟩

end Table.Params

end Tabular
