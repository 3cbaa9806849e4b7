import Tabular.Host.Declaration
import Tabular.Table.Header

/-!
The text that declares columns of quoted names and of the type `TEXT`. Whatever the names are, it
is taken apart into the tokens that it was put together from, and these are read as a table with
just those columns.
-/
namespace Tabular.Sql

open Table (quoteIdentifier)

namespace Token

/-! ## Text in quotes -/

theorem readQuoted_of_ne {close c : Char} (other : c ≠ close) (before rest : List Char) :
    readQuoted close before (c :: rest) = readQuoted close (c :: before) rest := by
  rw [readQuoted.eq_def]
  exact if_neg other

theorem readQuoted_doubled (before text : List Char) {rest : List Char}
    (behind : rest.head? ≠ some '"') :
    readQuoted '"' before (text.flatMap (fun c => if c = '"' then [c, c] else [c]) ++ '"' :: rest) =
      some (before.reverse ++ text, rest) := by
  induction text generalizing before with
  | nil =>
    cases rest with
    | nil => rw [List.flatMap_nil, List.nil_append, readQuoted, if_pos rfl, List.append_nil]
    | cons c rest =>
      have other : c ≠ '"' := fun same => behind (congrArg some same)
      rw [List.flatMap_nil, List.nil_append, readQuoted, if_pos rfl, if_neg other, List.append_nil]
  | cons c text ih =>
    have onward : (c :: before).reverse ++ text = before.reverse ++ c :: text := by
      rw [List.reverse_cons, List.append_assoc, List.singleton_append]
    rw [List.flatMap_cons]
    by_cases quote : c = '"'
    · rw [if_pos quote, quote, List.append_assoc, List.cons_append, List.cons_append,
        List.nil_append, readQuoted, if_pos rfl, if_pos rfl, ih, ← quote, onward]
    · rw [if_neg quote, List.append_assoc, List.cons_append, List.nil_append,
        readQuoted_of_ne quote, ih, onward]

/-! ## One token after another -/

theorem ofTextAfter_token {afterWord : Bool} {c : Char} {text rest : List Char} {token : Token}
    (taken : take afterWord c text = some (some token, rest)) :
    ofTextAfter afterWord (c :: text) = (ofTextAfter token.isName rest).map (token :: ·) := by
  rw [ofTextAfter]
  split
  · rename_i none
    rw [taken] at none
    cases none
  · rename_i blank
    rw [taken] at blank
    cases blank
  · rename_i token' rest' found
    rw [taken] at found
    cases found
    rfl

@[simp] theorem ofTextAfter_space (afterWord : Bool) (text : List Char) :
    ofTextAfter afterWord (' ' :: text) = ofTextAfter false text := by
  have taken : take afterWord ' ' text = some (none, text) := rfl
  rw [ofTextAfter]
  split
  · rename_i none
    rw [taken] at none
    cases none
  · rename_i rest blank
    rw [taken] at blank
    cases blank
    rfl
  · rename_i token found
    rw [taken] at found
    cases found

/-! ## The text of a declaration -/

theorem take_quoted (afterWord : Bool) (name : List Char) {rest : List Char}
    (behind : rest.head? ≠ some '"') :
    take afterWord '"' (name.flatMap (fun c => if c = '"' then [c, c] else [c]) ++ '"' :: rest) =
      some (some (.quoted '"' (String.ofList name)), rest) := by
  show ofRead (.quoted '"') (readQuoted '"' [] _) = _
  rw [readQuoted_doubled [] name behind]
  rfl

theorem ofTextAfter_word {afterWord : Bool} {c d : Char} {text rest : List Char}
    (starts : take afterWord c (text ++ d :: rest) = ofTaken (takeWord c (text ++ d :: rest)))
    (goes : text.all continuesName = true) (ends : continuesName d = false) :
    ofTextAfter afterWord (c :: (text ++ d :: rest)) =
      (ofTextAfter true (d :: rest)).map
        (.word (String.ofList (c :: text)) (capitalized (String.ofList (c :: text))) :: ·) := by
  have stops : ¬ continuesName d = true := Bool.eq_false_iff.mp ends
  have inside := List.all_eq_true.mp goes
  rw [takeWord, List.takeWhile_append_of_pos inside, List.dropWhile_append_of_pos inside,
    List.takeWhile_cons_of_neg stops, List.dropWhile_cons_of_neg stops, List.append_nil] at starts
  exact ofTextAfter_token starts

def textColumn (name : String) : List Token := [.quoted '"' name, .word "TEXT" "TEXT"]

def furtherColumns (names : List String) : List Token :=
  names.flatMap fun name => .symbol "," :: textColumn name

def columnText (name : String) : String := quoteIdentifier name ++ " TEXT"

theorem ofTextAfter_column (afterWord : Bool) (name : String) {c : Char} (rest : List Char)
    (ends : continuesName c = false) :
    ofTextAfter afterWord ((columnText name).toList ++ c :: rest) =
      (ofTextAfter true (c :: rest)).map (textColumn name ++ ·) := by
  have text : (columnText name).toList ++ c :: rest =
      '"' :: (name.toList.flatMap (fun c => if c = '"' then [c, c] else [c]) ++
        '"' :: ' ' :: 'T' :: (['E', 'X', 'T'] ++ c :: rest)) := by
    simp only [columnText, quoteIdentifier, String.toList_append, String.toList_ofList,
      List.cons_append, List.append_assoc, List.nil_append]
    rfl
  rw [text, ofTextAfter_token (take_quoted afterWord name.toList (by simp)),
    ofTextAfter_space,
    ofTextAfter_word rfl rfl ends, String.ofList_toList, Option.map_map]
  rfl

def columnsText (names : List String) : List Char :=
  [','].intercalate (names.map fun name => (columnText name).toList)

@[simp] theorem columnsText_cons_cons (name next : String) (more : List String) :
    columnsText (name :: next :: more) =
      (columnText name).toList ++ ',' :: columnsText (next :: more) := by
  rw [columnsText, List.map_cons, List.map_cons, List.intercalate_cons_cons, List.append_assoc,
    List.singleton_append]
  rfl

theorem ofTextAfter_columns (afterWord : Bool) (name : String) (more : List String) :
    ofTextAfter afterWord (columnsText (name :: more) ++ [')']) =
      some (textColumn name ++ (furtherColumns more ++ [.symbol ")"])) := by
  induction more generalizing afterWord name with
  | nil =>
    have closed : ofTextAfter true [')'] = some [.symbol ")"] := by
      have taken : take true ')' [] = some (some (.symbol ")"), []) := rfl
      rw [ofTextAfter_token taken, ofTextAfter]
      rfl
    rw [columnsText, List.map_singleton, List.intercalate_singleton,
      ofTextAfter_column _ _ _ (by decide), closed]
    rfl
  | cons next more ih =>
    have comma : take true ',' (columnsText (next :: more) ++ [')']) =
        some (some (.symbol ","), columnsText (next :: more) ++ [')']) := rfl
    rw [columnsText_cons_cons, List.append_assoc, List.cons_append,
      ofTextAfter_column _ _ _ (by decide), ofTextAfter_token comma, ih]
    rfl

def declarationTokens (name : String) (more : List String) : List Token :=
  [.word "CREATE" "CREATE", .word "TABLE" "TABLE", .word "x" "X", .symbol "("] ++
    (textColumn name ++ (furtherColumns more ++ [.symbol ")"]))

theorem ofText_declaration (columns : Table.HeaderColumns) {name : String} {more : List String}
    (names : columns.names = name :: more) :
    ofText columns.createTableSql.toList = some (declarationTokens name more) := by
  have text : columns.createTableSql.toList =
      'C' :: (['R', 'E', 'A', 'T', 'E'] ++ ' ' :: 'T' :: (['A', 'B', 'L', 'E'] ++
        ' ' :: 'x' :: ([] ++ '(' :: (columnsText (name :: more) ++ [')'])))) := by
    show ("CREATE TABLE x(" ++ String.intercalate "," (columns.names.map columnText) ++
      ")").toList = _
    rw [names]
    simp only [String.toList_append, String.toList_intercalate, List.map_map, List.append_assoc]
    rfl
  have opening : take true '(' (columnsText (name :: more) ++ [')']) =
      some (some (.symbol "("), columnsText (name :: more) ++ [')']) := rfl
  rw [ofText, text, ofTextAfter_word rfl rfl (by decide), ofTextAfter_space,
    ofTextAfter_word rfl rfl (by decide), ofTextAfter_space,
    ofTextAfter_word rfl rfl (by decide), ofTextAfter_token opening, ofTextAfter_columns]
  rfl

end Token

namespace Reader

open Token

variable (nested : Nested)

theorem bind_ok {α β : Type} {first : Reader α} {next : α → Reader β} {tokens rest : List Token}
    {value : α} (ran : first tokens = .ok value rest) :
    (first >>= next) tokens = next value rest := by
  show EStateM.bind first next tokens = _
  rw [EStateM.bind, ran]

theorem collectWithin_some {α : Type} {step : Reader (Option α)} {token : Token}
    {budget tokens rest later : List Token} {value : α} {values : List α}
    (first : step tokens = .ok (some value) rest)
    (others : collectWithin step budget rest = .ok values later) :
    collectWithin step (token :: budget) tokens = .ok (value :: values) later := by
  rw [collectWithin, bind_ok first]
  dsimp only
  rw [bind_ok others]
  rfl

def declared (name : String) : Column := { name, type? := some "TEXT" }

theorem entry_textColumn (name symbol : String) (rest : List Token) :
    entry nested (textColumn name ++ .symbol symbol :: rest) =
      .ok (some (declared name)) (.symbol symbol :: rest) := rfl

theorem furtherColumns_front (names : List String) :
    ∃ symbol rest, furtherColumns names ++ [.symbol ")"] = .symbol symbol :: rest := by
  cases names with
  | nil => exact ⟨_, _, rfl⟩
  | cons name more => exact ⟨_, _, rfl⟩

@[simp] theorem furtherColumns_cons (name : String) (more : List String) :
    furtherColumns (name :: more) = .symbol "," :: (textColumn name ++ furtherColumns more) := by
  rw [furtherColumns, List.flatMap_cons, List.cons_append]
  rfl

/-- One column more is read for each comma. The tokens left are budget enough for it. -/
theorem collect_furtherColumns (names : List String) {budget : List Token}
    (enough : names.length < budget.length) :
    collectWithin (do if ← symbol? "," then return some (← entry nested) else return none) budget
        (furtherColumns names ++ [.symbol ")"]) =
      .ok (names.map (some ∘ declared)) [.symbol ")"] := by
  induction names generalizing budget with
  | nil =>
    obtain ⟨token, budget, rfl⟩ := List.exists_cons_of_length_pos enough
    rfl
  | cons name more ih =>
    obtain ⟨token, budget, rfl⟩ := List.exists_cons_of_length_pos (Nat.zero_lt_of_lt enough)
    have others := ih (Nat.lt_of_succ_lt_succ enough)
    obtain ⟨sign, rest, front⟩ := furtherColumns_front more
    rw [front] at others
    rw [furtherColumns_cons, List.cons_append, List.append_assoc, front]
    exact collectWithin_some rfl others

theorem length_le_furtherColumns (names : List String) :
    names.length ≤ (furtherColumns names).length := by
  induction names with
  | nil => exact Nat.le_refl _
  | cons name more ih =>
    rw [furtherColumns_cons, List.length_cons, List.length_cons, List.length_append]
    omega

theorem columns_textColumns (name : String) (more : List String) :
    columns nested (.symbol "(" :: (textColumn name ++ (furtherColumns more ++ [.symbol ")"]))) =
      .ok ((name :: more).map declared) [] := by
  have enough : more.length < (furtherColumns more ++ [Token.symbol ")"]).length := by
    have least := length_le_furtherColumns more
    rw [List.length_append, List.length_singleton]
    omega
  have others := collect_furtherColumns nested more enough
  have entries : list (entry nested) (textColumn name ++ (furtherColumns more ++ [.symbol ")"])) =
      .ok ((name :: more).map (some ∘ declared)) [.symbol ")"] := by
    obtain ⟨sign, rest, front⟩ := furtherColumns_front more
    rw [front] at others ⊢
    rw [list, separatedBy, bind_ok (entry_textColumn nested name sign rest)]
    exact bind_ok others
  have opened : columns nested
      (.symbol "(" :: (textColumn name ++ (furtherColumns more ++ [.symbol ")"]))) =
      (do
        let entries ← list (entry nested)
        symbol ")"
        return entries.filterMap id : Reader (List Column))
          (textColumn name ++ (furtherColumns more ++ [.symbol ")"])) := rfl
  have all : ((name :: more).map (some ∘ declared)).filterMap id = (name :: more).map declared := by
    rw [List.filterMap_map]
    exact congrFun List.filterMap_eq_map _
  rw [opened, bind_ok entries, ← all]
  rfl

/-- Where reading comes down to one part, the part decides what is read. -/
theorem reads_by {α β : Type} {whole : Reader β} {part : Reader α} {ending : α → Reader β}
    {tokens behind rest : List Token} {value : α} {result : β}
    (read : part behind = .ok value rest) (opened : whole tokens = (part >>= ending) behind)
    (closed : ending value rest = .ok result rest) : whole tokens = .ok result rest := by
  rw [opened, bind_ok read, closed]

theorem createTable_textColumns (name : String) (more : List String) :
    createTable nested (.word "x" "X" :: .symbol "(" ::
        (textColumn name ++ (furtherColumns more ++ [.symbol ")"]))) =
      .ok { table := "x", columns := (name :: more).map declared } [] :=
  reads_by (columns_textColumns nested name more) rfl rfl

/-- What is declared is the table with those columns, and nothing else is. -/
theorem statements_declaration (name : String) (more : List String) :
    statements (declarationTokens name more) =
      .ok [.createTable { table := "x", columns := (name :: more).map declared }] [] := by
  have table := createTable_textColumns (Nested.within 49) name more
  have created : creation (Nested.within 49) (declarationTokens name more).tail =
      .ok (some { table := "x", columns := (name :: more).map declared }) [] :=
    reads_by table rfl rfl
  have statement : statement depthLimit (declarationTokens name more) =
      .ok (.createTable { table := "x", columns := (name :: more).map declared }) [] :=
    reads_by created rfl rfl
  have first : nextStatement? true (declarationTokens name more) =
      .ok (some (.createTable { table := "x", columns := (name :: more).map declared })) [] :=
    reads_by statement rfl rfl
  exact reads_by first rfl rfl

end Reader

end Tabular.Sql
