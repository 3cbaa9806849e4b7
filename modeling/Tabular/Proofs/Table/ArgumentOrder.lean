import Tabular.Proofs.Table.Arguments

/-!
The order of arguments. Whether a list of arguments is taken is a matter of its members and of their
keys alone, and so is every parameter that is read from it.
-/
namespace Tabular.Table.Params

/-! ## What a list of arguments gives -/

/-- One source is given, and if it is a file then it has a name. -/
def OneSource (arguments : List String) : Prop :=
  (∃ path, path ≠ "" ∧ Given arguments (.filename path)) ∧
      (∀ text, ¬ Given arguments (.data text)) ∨
    (∃ text, Given arguments (.data text)) ∧ ∀ path, ¬ Given arguments (.filename path)

/-- The parameters are those that the arguments set, and without one they are the defaults. -/
structure GivenBy (arguments : List String) (p : Params) : Prop where
  filename : ∀ path, p.filename = some path ↔ Given arguments (.filename path)
  data : ∀ text, p.data = some text ↔ Given arguments (.data text)
  optionsUsed : ∀ options, p.optionsUsed = some options ↔ Given arguments (.optionsUsed options)
  maxColumns : ∀ limit, p.maxColumns = limit ↔ Given arguments (.maxColumns limit) ∨
    (∀ other, ¬ Given arguments (.maxColumns other)) ∧ limit = columnsLimit
  testFlags : ∀ flags, p.testFlags = flags ↔ Given arguments (.testFlags flags) ∨
    (∀ other, ¬ Given arguments (.testFlags other)) ∧ flags = 0

variable {arguments reordered : List String} {p q : Params}

theorem GivenBy.unique (given : GivenBy arguments p) (also : GivenBy arguments q) : p = q := by
  have filename : p.filename = q.filename := Option.ext fun path => by
    rw [given.filename, also.filename]
  have data : p.data = q.data := Option.ext fun text => by
    rw [given.data, also.data]
  have options : p.optionsUsed = q.optionsUsed := Option.ext fun options => by
    rw [given.optionsUsed, also.optionsUsed]
  have columns : p.maxColumns = q.maxColumns :=
    (given.maxColumns _).mpr ((also.maxColumns _).mp rfl)
  have flags : p.testFlags = q.testFlags := (given.testFlags _).mpr ((also.testFlags _).mp rfl)
  cases p
  cases q
  simp only at filename data options columns flags
  rw [filename, data, options, columns, flags]

theorem GivenBy.namesOneSource_iff (given : GivenBy arguments p) :
    p.NamesOneSource ↔ OneSource arguments := by
  unfold OneSource NamesOneSource
  simp only [← given.filename, ← given.data]
  cases p.filename <;> cases p.data <;> simp

/-! ## What was taken is what was given -/

namespace Reading

variable {r : Reading}

theorem maxColumns_eq_iff (defaults : r.AtDefaults) (limit : Nat) :
    r.params.maxColumns = limit ↔ r.Holds (.maxColumns limit) ∨
      (∀ other, ¬ r.Holds (.maxColumns other)) ∧ limit = columnsLimit := by
  cases seen : r.seenMaxColumns with
  | false => simp [Holds, seen, defaults.maxColumns seen, eq_comm]
  | true => simp [Holds, seen]

theorem testFlags_eq_iff (defaults : r.AtDefaults) (flags : UInt32) :
    r.params.testFlags = flags ↔ r.Holds (.testFlags flags) ∨
      (∀ other, ¬ r.Holds (.testFlags other)) ∧ flags = 0 := by
  cases seen : r.seenTestFlags with
  | false => simp [Holds, seen, defaults.testFlags seen, eq_comm]
  | true => simp [Holds, seen]

theorem holds_iff_given (taken : arguments.foldlM add {} = .ok r) (setting : Setting) :
    r.Holds setting ↔ Given arguments setting := by
  rw [holds_foldlM taken]
  exact or_iff_right fun holds => lacks_initial _ setting holds rfl

theorem givenBy_taken (taken : arguments.foldlM add {} = .ok r) : GivenBy arguments r.params := by
  have defaults : r.AtDefaults := AtDefaults.foldlM ⟨fun _ => rfl, fun _ => rfl⟩ taken
  have held := holds_iff_given taken
  exact {
    filename := fun path => held (.filename path)
    data := fun text => held (.data text)
    optionsUsed := fun options => held (.optionsUsed options)
    maxColumns := fun limit => by
      simp only [maxColumns_eq_iff defaults, held]
    testFlags := fun flags => by
      simp only [testFlags_eq_iff defaults, held] }

end Reading

theorem parse_eq_ok_iff_given :
    parse arguments = .ok p ↔ InOrder arguments ∧ OneSource arguments ∧ GivenBy arguments p := by
  rw [parse_eq_ok_iff, ← Reading.foldlM_initial_taken_iff]
  constructor
  · rintro ⟨r, taken, rfl, source⟩
    have given := Reading.givenBy_taken taken
    exact ⟨⟨r, taken⟩, given.namesOneSource_iff.mp source, given⟩
  · rintro ⟨⟨r, taken⟩, source, given⟩
    exact ⟨r, taken, (Reading.givenBy_taken taken).unique given,
      given.namesOneSource_iff.mpr source⟩

/-! ## Order -/

theorem Given.perm {setting : Setting} (same : arguments.Perm reordered) :
    Given arguments setting ↔ Given reordered setting :=
  exists_congr fun _ => and_congr_left fun _ => same.mem_iff

theorem InOrder.of_perm (same : arguments.Perm reordered) (order : InOrder arguments) :
    InOrder reordered where
  sets := fun argument member => order.sets argument (same.mem_iff.mpr member)
  distinct := (same.map keyText).nodup_iff.mp order.distinct

theorem OneSource.of_perm (same : arguments.Perm reordered) (source : OneSource arguments) :
    OneSource reordered := by
  unfold OneSource at source ⊢
  simpa only [Given.perm same] using source

theorem GivenBy.of_perm (same : arguments.Perm reordered) (given : GivenBy arguments p) :
    GivenBy reordered p where
  filename := fun path => (given.filename path).trans (Given.perm same)
  data := fun text => (given.data text).trans (Given.perm same)
  optionsUsed := fun options => (given.optionsUsed options).trans (Given.perm same)
  maxColumns := fun limit => by simpa only [Given.perm same] using given.maxColumns limit
  testFlags := fun flags => by simpa only [Given.perm same] using given.testFlags flags

theorem parse_of_perm (same : arguments.Perm reordered) (parsed : parse arguments = .ok p) :
    parse reordered = .ok p := by
  obtain ⟨order, source, given⟩ := parse_eq_ok_iff_given.mp parsed
  exact parse_eq_ok_iff_given.mpr ⟨order.of_perm same, source.of_perm same, given.of_perm same⟩

/-- The order of arguments does not matter. They are read exactly if each of them sets something,
no key is given twice and one source is given; and then the parameters are those that they set. -/
theorem parse_any_order :
    (∀ arguments reordered, arguments.Perm reordered →
      ∀ p, parse arguments = .ok p ↔ parse reordered = .ok p) ∧
      ∀ arguments, ((∃ p, parse arguments = .ok p) ↔ InOrder arguments ∧ OneSource arguments) ∧
        ∀ p, parse arguments = .ok p → GivenBy arguments p := by
  refine ⟨fun arguments reordered same p => ⟨parse_of_perm same, parse_of_perm same.symm⟩,
    fun arguments => ⟨⟨?_, ?_⟩, fun p parsed => (parse_eq_ok_iff_given.mp parsed).2.2⟩⟩
  · rintro ⟨p, parsed⟩
    obtain ⟨order, source, -⟩ := parse_eq_ok_iff_given.mp parsed
    exact ⟨order, source⟩
  · rintro ⟨order, source⟩
    obtain ⟨r, taken⟩ := Reading.foldlM_initial_taken_iff.mpr order
    exact ⟨r.params, parse_eq_ok_iff_given.mpr ⟨order, source, Reading.givenBy_taken taken⟩⟩

/-- Three arguments, one of them with a signed number in quotes, are read alike when the last comes
first. -/
theorem parse_any_order_signed :
    parse ["testflags=1", " max_columns = '+0012'", "data=[a,b]"] =
        .ok { data := some "a,b", maxColumns := 12, testFlags := 1 } ∧
      GivenBy ["data=[a,b]", "testflags=1", " max_columns = '+0012'"]
        { data := some "a,b", maxColumns := 12, testFlags := 1 } := by
  obtain ⟨reorders, reads⟩ := parse_any_order
  have parsed : parse ["data=[a,b]", "testflags=1", " max_columns = '+0012'"] =
      .ok { data := some "a,b", maxColumns := 12, testFlags := 1 } := by decide +kernel
  exact ⟨(reorders _ _ (by decide) _).mp parsed, (reads _).2 _ parsed⟩

end Tabular.Table.Params
