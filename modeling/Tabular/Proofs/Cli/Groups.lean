import Mathlib.Data.List.Induction
import Tabular.Cli.Request

/-!
Command lines in parts. Each part of a command line that means something on its own asks for one
thing, and a line of such parts is read exactly if it names at most one source of overwrites and at
most one input. What is read from it does not depend on the order of the parts.
-/
namespace Tabular.Cli

/-! ## Parts of a command line -/

/-- A part of a command line. Arguments are told apart by their text, ill-formed bytes being shown
in it; the bytes of a path are kept. -/
inductive Group where
  | help (argument : Bytes)
      (said : Utf8.decodeLossy argument = "-h" ∨ Utf8.decodeLossy argument = "--help")
  | mark (argument : Bytes) (said : Utf8.decodeLossy argument = "-b")
  /-- An option and, whatever it looks like, the argument behind it. -/
  | overwritesApart (option value : Bytes) (said : Utf8.decodeLossy option = "--overwrite")
  | overwritesWithin (argument : Bytes) (source : String)
      (said : Utf8.decodeLossy argument = "--overwrite=" ++ source)
  | standardInput (argument : Bytes) (said : Utf8.decodeLossy argument = "-")
  | path (argument : Bytes) (said : (Utf8.decodeLossy argument).toList.head? ≠ some '-')

namespace Group

def arguments : Group → List Bytes
  | overwritesApart option value _ => [option, value]
  | help argument _ | mark argument _ | overwritesWithin argument _ _ | standardInput argument _
  | path argument _ => [argument]

def source? : Group → Option String
  | overwritesApart _ value _ => some (Utf8.decodeLossy value)
  | overwritesWithin _ source _ => some source
  | _ => none

def path? : Group → Option Bytes
  | path argument _ => some argument
  | _ => none

def isHelp : Group → Bool
  | help .. => true
  | _ => false

def isMark : Group → Bool
  | mark .. => true
  | _ => false

def isOverwrites (g : Group) : Bool := g.source?.isSome

def isInput : Group → Bool
  | standardInput .. | path .. => true
  | _ => false

end Group

def lineOf (groups : List Group) : List Bytes := groups.flatMap Group.arguments

/-- Something that looks like an option and is no part of a command line. -/
structure Unrecognized (argument : Bytes) : Prop where
  dash : (Utf8.decodeLossy argument).toList.head? = some '-'
  apart : Utf8.decodeLossy argument ≠ "--overwrite"
  alone : ∀ g : Group, g.arguments ≠ [argument]

namespace Argument

theorem ofText_other {text : String}
    (other : text ∉ ["-h", "--help", "-b", "--overwrite", "-"]) :
    ofText text =
      if overwritesKey.isPrefixOf text.toList then
        .overwrites (String.ofList (text.toList.drop overwritesKey.length))
      else if text.toList.head? = some '-' then .unknownOption
      else .path := by
  simp only [List.mem_cons, List.not_mem_nil, or_false, not_or] at other
  obtain ⟨short, long, mark, overwrites, dash⟩ := other
  unfold ofText
  split
  · contradiction
  · contradiction
  · contradiction
  · contradiction
  · contradiction
  · rfl

theorem overwritesKey_isPrefixOf_iff (text : String) :
    overwritesKey.isPrefixOf text.toList = true ↔ ∃ source, text = "--overwrite=" ++ source := by
  rw [List.isPrefixOf_iff_prefix]
  constructor
  · rintro ⟨rest, same⟩
    refine ⟨String.ofList rest, String.toList_inj.mp ?_⟩
    rw [String.toList_append, String.toList_ofList (l := rest), ← same]
    rfl
  · rintro ⟨source, rfl⟩
    rw [String.toList_append]
    exact List.prefix_append _ _

theorem ofText_within (source : String) :
    ofText ("--overwrite=" ++ source) = .overwrites source := by
  have other : "--overwrite=" ++ source ∉ ["-h", "--help", "-b", "--overwrite", "-"] := by
    intro known
    have words : ∀ word ∈ ["-h", "--help", "-b", "--overwrite", "-"], word.toList.length < 12 := by
      decide
    have short := words _ known
    rw [String.toList_append, List.length_append] at short
    have long : "--overwrite=".toList.length = 12 := rfl
    omega
  rw [ofText_other other, if_pos ((overwritesKey_isPrefixOf_iff _).mpr ⟨source, rfl⟩),
    String.toList_append]
  have behind :
      ("--overwrite=".toList ++ source.toList).drop overwritesKey.length = source.toList :=
    List.drop_left
  rw [behind, String.ofList_toList]

theorem ofText_path {text : String} (plain : text.toList.head? ≠ some '-') :
    ofText text = .path := by
  have words : ∀ word ∈ ["-h", "--help", "-b", "--overwrite", "-"],
      word.toList.head? = some '-' := by decide
  have unprefixed : ¬ overwritesKey.isPrefixOf text.toList = true := fun known => by
    obtain ⟨source, rfl⟩ := (overwritesKey_isPrefixOf_iff text).mp known
    rw [String.toList_append] at plain
    exact plain rfl
  rw [ofText_other fun known => plain (words text known), if_neg unprefixed, if_neg plain]

theorem ofText_unrecognized {argument : Bytes} (unknown : Unrecognized argument) :
    ofText (Utf8.decodeLossy argument) = .unknownOption := by
  have other : Utf8.decodeLossy argument ∉ ["-h", "--help", "-b", "--overwrite", "-"] := by
    simp only [List.mem_cons, List.not_mem_nil, or_false, not_or]
    exact ⟨fun said => unknown.alone (.help argument (Or.inl said)) rfl,
      fun said => unknown.alone (.help argument (Or.inr said)) rfl,
      fun said => unknown.alone (.mark argument said) rfl, unknown.apart,
      fun said => unknown.alone (.standardInput argument said) rfl⟩
  have unprefixed : ¬ overwritesKey.isPrefixOf (Utf8.decodeLossy argument).toList = true :=
    fun known => by
      obtain ⟨source, said⟩ := (overwritesKey_isPrefixOf_iff _).mp known
      exact unknown.alone (.overwritesWithin argument source said) rfl
  rw [ofText_other other, if_neg unprefixed, if_pos unknown.dash]

theorem unrecognized_of_ofText {argument : Bytes}
    (told : ofText (Utf8.decodeLossy argument) = .unknownOption) : Unrecognized argument where
  dash := by
    by_contra plain
    cases told.symm.trans (ofText_path plain)
  apart := fun said => absurd (said ▸ told) (by decide)
  alone := by
    intro g same
    cases g with
    | help _ said =>
      cases same
      rcases said with said | said <;> exact absurd (said ▸ told) (by decide)
    | mark _ said | standardInput _ said =>
      cases same
      exact absurd (said ▸ told) (by decide)
    | overwritesApart => cases same
    | overwritesWithin _ source said =>
      cases same
      cases told.symm.trans (said ▸ ofText_within source)
    | path _ plain =>
      cases same
      cases told.symm.trans (ofText_path plain)

end Argument

namespace Request

/-! ## One part -/

def asking (r : Request) (g : Group) : Request where
  input := g.path?.or r.input
  overwrites := g.source?.or r.overwrites
  withMark := g.isMark || r.withMark
  help := g.isHelp || r.help

/-- A part asks for nothing that was asked for before and can be asked for once only. -/
def Takes (r : Request) (inputSeen : Bool) (g : Group) : Prop :=
  (g.isOverwrites = true → r.overwrites = none) ∧ (g.isInput = true → inputSeen = false)

variable {r : Request} {inputSeen : Bool} {g : Group}

theorem setOverwrites_of_none (none : r.overwrites = none) (source : String) :
    r.setOverwrites source = .ok { r with overwrites := some source } := by
  unfold setOverwrites
  rw [none]
  rfl

theorem setOverwrites_of_ne_none (some_ : r.overwrites ≠ none) (source : String) :
    r.setOverwrites source = .error .repeatedOverwrites := by
  unfold setOverwrites
  rw [if_pos (Option.isSome_iff_ne_none.mpr some_)]

theorem follow_arguments (g : Group) (rest : List Bytes) :
    r.follow inputSeen (g.arguments ++ rest) =
      match g with
      | .help .. => follow { r with help := true } inputSeen rest
      | .mark .. => follow { r with withMark := true } inputSeen rest
      | .overwritesApart _ value _ => do
        follow (← r.setOverwrites (Utf8.decodeLossy value)) inputSeen rest
      | .overwritesWithin _ source _ => do follow (← r.setOverwrites source) inputSeen rest
      | .standardInput argument _ =>
        if inputSeen then .error (.unrecognized (Utf8.decodeLossy argument)) else follow r true rest
      | .path argument _ =>
        if inputSeen then .error (.unrecognized (Utf8.decodeLossy argument))
        else follow { r with input := some argument } true rest := by
  cases g with
  | help argument said =>
    have told : Argument.ofText (Utf8.decodeLossy argument) = .help := by
      rcases said with said | said <;> rw [said] <;> rfl
    rw [Group.arguments, List.singleton_append, follow.eq_def]
    simp only [told]
  | mark argument said =>
    have told : Argument.ofText (Utf8.decodeLossy argument) = .mark := by rw [said]; rfl
    rw [Group.arguments, List.singleton_append, follow.eq_def]
    simp only [told]
  | overwritesApart option value said =>
    have told : Argument.ofText (Utf8.decodeLossy option) = .overwritesNext := by rw [said]; rfl
    rw [Group.arguments, List.cons_append, List.singleton_append, follow.eq_def]
    simp only [told]
  | overwritesWithin argument source said =>
    have told : Argument.ofText (Utf8.decodeLossy argument) = .overwrites source := by
      rw [said, Argument.ofText_within]
    rw [Group.arguments, List.singleton_append, follow.eq_def]
    simp only [told]
  | standardInput argument said =>
    have told : Argument.ofText (Utf8.decodeLossy argument) = .standardInput := by rw [said]; rfl
    rw [Group.arguments, List.singleton_append, follow.eq_def]
    simp only [told]
  | path argument said =>
    rw [Group.arguments, List.singleton_append, follow.eq_def]
    simp only [Argument.ofText_path said]

theorem follow_group (takes : r.Takes inputSeen g) (rest : List Bytes) :
    r.follow inputSeen (g.arguments ++ rest) =
      (r.asking g).follow (g.isInput || inputSeen) rest := by
  obtain ⟨once, first⟩ := takes
  rw [follow_arguments]
  cases g with
  | help | mark => rfl
  | overwritesApart | overwritesWithin =>
    dsimp only
    rw [setOverwrites_of_none (once rfl)]
    rfl
  | standardInput | path =>
    cases first rfl
    rfl

theorem follow_group_refused (refused : ¬ r.Takes inputSeen g) (rest : List Bytes) :
    ∃ error, r.follow inputSeen (g.arguments ++ rest) = .error error := by
  rw [follow_arguments]
  cases g with
  | help | mark => exact absurd ⟨nofun, nofun⟩ refused
  | overwritesApart | overwritesWithin =>
    have again : r.overwrites ≠ none := fun none => refused ⟨fun _ => none, nofun⟩
    dsimp only
    rw [setOverwrites_of_ne_none again]
    exact ⟨_, rfl⟩
  | standardInput | path =>
    cases inputSeen with
    | false => exact absurd ⟨nofun, fun _ => rfl⟩ refused
    | true => exact ⟨_, rfl⟩

theorem follow_unrecognized {argument : Bytes} (unknown : Unrecognized argument)
    (rest : List Bytes) : ∃ error, r.follow inputSeen (argument :: rest) = .error error := by
  rw [follow.eq_def]
  simp only [Argument.ofText_unrecognized unknown]
  exact ⟨_, rfl⟩

theorem follow_bare {option : Bytes} (said : Utf8.decodeLossy option = "--overwrite") :
    ∃ error, r.follow inputSeen [option] = .error error := by
  have told : Argument.ofText (Utf8.decodeLossy option) = .overwritesNext := by rw [said]; rfl
  rw [follow.eq_def]
  simp only [told]
  exact ⟨_, rfl⟩

/-! ## Many parts -/

def askingAll (r : Request) (groups : List Group) : Request := groups.foldl asking r

def TakesAll (r : Request) (inputSeen : Bool) (groups : List Group) : Prop :=
  groups.countP Group.isOverwrites + (if r.overwrites.isSome then 1 else 0) ≤ 1 ∧
    groups.countP Group.isInput + (if inputSeen then 1 else 0) ≤ 1

@[simp] theorem takesAll_cons {groups : List Group} :
    r.TakesAll inputSeen (g :: groups) ↔
      r.Takes inputSeen g ∧ (r.asking g).TakesAll (g.isInput || inputSeen) groups := by
  have asked : (r.asking g).overwrites.isSome = (g.isOverwrites || r.overwrites.isSome) :=
    Option.isSome_or
  have none : r.overwrites = none ↔ r.overwrites.isSome = false := by simp
  unfold TakesAll Takes
  rw [List.countP_cons, List.countP_cons, asked, none]
  cases g.isOverwrites <;> cases r.overwrites.isSome <;> cases g.isInput <;> cases inputSeen <;>
    simp

theorem follow_line {groups : List Group} (takes : r.TakesAll inputSeen groups)
    (rest : List Bytes) : ∃ seen,
    r.follow inputSeen (lineOf groups ++ rest) = (r.askingAll groups).follow seen rest := by
  induction groups generalizing r inputSeen with
  | nil => exact ⟨inputSeen, rfl⟩
  | cons g groups ih =>
    obtain ⟨first, later⟩ := takesAll_cons.mp takes
    obtain ⟨seen, same⟩ := ih later
    refine ⟨seen, ?_⟩
    rw [lineOf, List.flatMap_cons, List.append_assoc, follow_group first]
    exact same

theorem follow_line_refused {groups : List Group} (refused : ¬ r.TakesAll inputSeen groups)
    (rest : List Bytes) : ∃ error, r.follow inputSeen (lineOf groups ++ rest) = .error error := by
  induction groups generalizing r inputSeen with
  | nil =>
    refine absurd ⟨?_, ?_⟩ refused <;> rw [List.countP_nil, Nat.zero_add] <;> split <;> omega
  | cons g groups ih =>
    rw [lineOf, List.flatMap_cons, List.append_assoc]
    by_cases first : r.Takes inputSeen g
    · rw [follow_group first]
      exact ih fun later => refused (takesAll_cons.mpr ⟨first, later⟩)
    · exact follow_group_refused first _

/-- What is left of a line cannot make up for what is refused in it. -/
theorem parse_refused_behind {groups : List Group} {rest : List Bytes}
    (refused : ∀ r seen, ∃ error, follow r seen rest = .error error) :
    ∃ error, parse (lineOf groups ++ rest) = .error error := by
  by_cases takes : TakesAll {} false groups
  · obtain ⟨seen, same⟩ := follow_line takes rest
    obtain ⟨error, refused⟩ := refused (askingAll {} groups) seen
    exact ⟨error, same.trans refused⟩
  · exact follow_line_refused takes rest

theorem parse_line_eq_ok_iff {groups : List Group} :
    parse (lineOf groups) = .ok r ↔ TakesAll {} false groups ∧ askingAll {} groups = r := by
  rw [← List.append_nil (lineOf groups)]
  by_cases takes : TakesAll {} false groups
  · obtain ⟨seen, same⟩ := follow_line takes []
    rw [parse, same, follow]
    simp [takes]
  · obtain ⟨error, refused⟩ := follow_line_refused takes []
    rw [parse, refused]
    simp [takes]

/-! ## What is asked for -/

/-- A request for what the parts of a line ask for, and nothing else. -/
structure Asks (groups : List Group) (r : Request) : Prop where
  input : ∀ path, r.input = some path ↔ ∃ g ∈ groups, g.path? = some path
  overwrites : ∀ source, r.overwrites = some source ↔ ∃ g ∈ groups, g.source? = some source
  withMark : r.withMark = true ↔ ∃ g ∈ groups, g.isMark = true
  help : r.help = true ↔ ∃ g ∈ groups, g.isHelp = true

theorem Asks.unique {groups : List Group} {r s : Request} (asks : Asks groups r)
    (also : Asks groups s) : r = s := by
  have input : r.input = s.input := Option.ext fun path => by rw [asks.input, also.input]
  have overwrites : r.overwrites = s.overwrites := Option.ext fun source => by
    rw [asks.overwrites, also.overwrites]
  have withMark : r.withMark = s.withMark :=
    Bool.eq_iff_iff.mpr (asks.withMark.trans also.withMark.symm)
  have help : r.help = s.help := Bool.eq_iff_iff.mpr (asks.help.trans also.help.symm)
  cases r
  cases s
  simp only at input overwrites withMark help
  rw [input, overwrites, withMark, help]

theorem Asks.of_perm {groups reordered : List Group} (same : groups.Perm reordered)
    (asks : Asks groups r) : Asks reordered r where
  input := fun path => by simpa only [same.mem_iff] using asks.input path
  overwrites := fun source => by simpa only [same.mem_iff] using asks.overwrites source
  withMark := by simpa only [same.mem_iff] using asks.withMark
  help := by simpa only [same.mem_iff] using asks.help

theorem asking_input_known (known : r.input ≠ none → inputSeen = true) (g : Group) :
    (r.asking g).input ≠ none → (g.isInput || inputSeen) = true := by
  cases g with
  | standardInput | path => exact fun _ => rfl
  | help | mark | overwritesApart | overwritesWithin => exact known

theorem holds_askingAll (Holds : Request → Prop) (Says : Group → Prop)
    (step : ∀ r seen g, Takes r seen g → (r.input ≠ none → seen = true) →
      (Holds (r.asking g) ↔ Says g ∨ Holds r))
    {groups : List Group} (takes : r.TakesAll inputSeen groups)
    (known : r.input ≠ none → inputSeen = true) :
    Holds (r.askingAll groups) ↔ (∃ g ∈ groups, Says g) ∨ Holds r := by
  induction groups generalizing r inputSeen with
  | nil => simp [askingAll]
  | cons g groups ih =>
    obtain ⟨first, later⟩ := takesAll_cons.mp takes
    have behind := ih later (asking_input_known known g)
    rw [step r inputSeen g first known] at behind
    refine behind.trans ?_
    simp only [List.mem_cons, exists_eq_or_imp, or_assoc]
    exact or_left_comm

theorem input_asking {r : Request} {seen : Bool} {g : Group} (takes : r.Takes seen g)
    (known : r.input ≠ none → seen = true) (path : Bytes) :
    (r.asking g).input = some path ↔ g.path? = some path ∨ r.input = some path := by
  unfold asking
  cases named : g.path? with
  | none => simp
  | some other =>
    have isInput : g.isInput = true := by
      cases g with
      | path => rfl
      | _ => cases named
    have unseen := takes.2 isInput
    have none : r.input = none := by
      by_contra some_
      cases (known some_).symm.trans unseen
    simp [none]

theorem overwrites_asking {r : Request} {seen : Bool} {g : Group} (takes : r.Takes seen g)
    (source : String) :
    (r.asking g).overwrites = some source ↔
      g.source? = some source ∨ r.overwrites = some source := by
  unfold asking
  cases named : g.source? with
  | none => simp
  | some other =>
    have none := takes.1 (Option.isSome_iff_exists.mpr ⟨other, named⟩)
    simp [none]

theorem asks_askingAll {groups : List Group} (takes : TakesAll {} false groups) :
    Asks groups (askingAll {} groups) where
  input := fun path => by
    rw [holds_askingAll (fun r => r.input = some path) (fun g => g.path? = some path)
      (fun r seen g takes known => input_asking takes known path) takes (by simp)]
    simp
  overwrites := fun source => by
    rw [holds_askingAll (fun r => r.overwrites = some source) (fun g => g.source? = some source)
      (fun r seen g takes _ => overwrites_asking takes source) takes (by simp)]
    simp
  withMark := by
    rw [holds_askingAll (fun r => r.withMark = true) (fun g => g.isMark = true)
      (fun r seen g _ _ => Bool.or_eq_true_iff) takes (by simp)]
    simp
  help := by
    rw [holds_askingAll (fun r => r.help = true) (fun g => g.isHelp = true)
      (fun r seen g _ _ => Bool.or_eq_true_iff) takes (by simp)]
    simp

theorem parse_line_eq_ok_iff_asks {groups : List Group} :
    parse (lineOf groups) = .ok r ↔
      (groups.countP Group.isOverwrites ≤ 1 ∧ groups.countP Group.isInput ≤ 1) ∧ Asks groups r := by
  have counts : TakesAll {} false groups ↔
      groups.countP Group.isOverwrites ≤ 1 ∧ groups.countP Group.isInput ≤ 1 := Iff.rfl
  rw [parse_line_eq_ok_iff, ← counts]
  refine and_congr_right fun takes => ?_
  exact ⟨fun same => same ▸ asks_askingAll takes, (asks_askingAll takes).unique⟩

theorem parse_line_of_perm {groups reordered : List Group} (same : groups.Perm reordered)
    (parsed : parse (lineOf groups) = .ok r) : parse (lineOf reordered) = .ok r := by
  obtain ⟨⟨overwrites, input⟩, asks⟩ := parse_line_eq_ok_iff_asks.mp parsed
  rw [same.countP_eq] at overwrites input
  exact parse_line_eq_ok_iff_asks.mpr ⟨⟨overwrites, input⟩, asks.of_perm same⟩

/-- The parts of a command line commute. A line of them is read exactly if at most one of them
names a source of overwrites and at most one an input, and what is read is what they ask for.
Anything else that looks like an option spoils the line wherever it stands among the parts, and so
does the option for overwrites without its value at the end. -/
theorem parse_line :
    (∀ groups reordered : List Group, groups.Perm reordered →
      ∀ r, parse (lineOf groups) = .ok r ↔ parse (lineOf reordered) = .ok r) ∧
    (∀ groups,
      ((∃ r, parse (lineOf groups) = .ok r) ↔
        groups.countP Group.isOverwrites ≤ 1 ∧ groups.countP Group.isInput ≤ 1) ∧
      ∀ r, parse (lineOf groups) = .ok r → Asks groups r) ∧
    (∀ front back argument, Unrecognized argument →
      ∃ error, parse (lineOf front ++ argument :: lineOf back) = .error error) ∧
    ∀ groups option, Utf8.decodeLossy option = "--overwrite" →
      ∃ error, parse (lineOf groups ++ [option]) = .error error := by
  refine ⟨fun groups reordered same r =>
      ⟨parse_line_of_perm same, parse_line_of_perm same.symm⟩, fun groups => ⟨⟨?_, ?_⟩, ?_⟩, ?_, ?_⟩
  · rintro ⟨r, parsed⟩
    exact (parse_line_eq_ok_iff_asks.mp parsed).1
  · exact fun takes => ⟨_, parse_line_eq_ok_iff.mpr ⟨takes, rfl⟩⟩
  · exact fun r parsed => (parse_line_eq_ok_iff_asks.mp parsed).2
  · exact fun front back argument unknown =>
      parse_refused_behind fun r seen => follow_unrecognized unknown _
  · exact fun groups option said => parse_refused_behind fun r seen => follow_bare said

/-- The value of an option may look like one, and a path may be ill-formed. -/
theorem parse_line_reordered :
    let path : Group := .path [0xFF, 97] (by decide +kernel)
    let mark : Group := .mark (Utf8.encode "-b") (by decide +kernel)
    let overwrites : Group := .overwritesApart (Utf8.encode "--overwrite") (Utf8.encode "-h")
      (by decide +kernel)
    parse [[0xFF, 97], Utf8.encode "--overwrite", Utf8.encode "-h", Utf8.encode "-b"] =
        .ok { input := some [0xFF, 97], overwrites := some "-h", withMark := true } ∧
      Asks [mark, path, overwrites]
        { input := some [0xFF, 97], overwrites := some "-h", withMark := true } ∧
      (∃ error, parse (lineOf [path] ++ Utf8.encode "--overwrites" :: lineOf [mark]) =
        .error error) ∧
      ∃ error, parse (lineOf [path, mark] ++ [Utf8.encode "--overwrite"]) = .error error := by
  intro path mark overwrites
  obtain ⟨commutes, reads, spoils, bare⟩ := parse_line
  have parsed : parse (lineOf [mark, path, overwrites]) =
      .ok { input := some [0xFF, 97], overwrites := some "-h", withMark := true } := by
    decide +kernel
  have reordered : ([path, overwrites] ++ [mark]).Perm ([mark] ++ [path, overwrites]) :=
    List.perm_append_comm
  exact ⟨(commutes _ _ reordered _).mpr parsed, (reads _).2 _ parsed,
    spoils _ _ _ (Argument.unrecognized_of_ofText (by decide +kernel)),
    bare _ _ (by decide +kernel)⟩

end Request

end Tabular.Cli
