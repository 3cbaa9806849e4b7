import Tabular.Sql.Keyword

/-!
The tokens of an SQL text: names, plain or quoted, numbers, strings, placeholders and symbols.
Blanks and comments part tokens and are left out.
-/
namespace Tabular.Sql

inductive Token where
  /-- A name or keyword as written, and in capitals. -/
  | word (text capitals : String)
  /-- A name in quotes, which are given by the one that opens it. -/
  | quoted (mark : Char) (text : String)
  /-- A number as written, but for an `L` behind it, which is told apart. -/
  | number (text : String) (long : Bool)
  | string (text : String)
  /-- A string written with an `N` in front. -/
  | nationalString (text : String)
  /-- The digits of a string of bytes, written as `X'00'` or `0x00`. -/
  | hexString (text : String)
  /-- A place for a value, written with a question mark or a dollar sign. -/
  | placeholder (text : String)
  /-- A colon or an at sign alone. It can name a value if it is joined to the next token. -/
  | sign (c : Char) (joined : Bool)
  | symbol (text : String)
  deriving DecidableEq, Repr, Inhabited

namespace Token

/-! ## Characters -/

/-- Blanks of ASCII. The ones beyond it are parts of names. -/
def isBlank (c : Char) : Bool := c == ' ' || (0x9 ≤ c.toNat && c.toNat ≤ 0xD)

/-- Names begin with an ASCII letter, an underscore or any character of the basic plane beyond
ASCII. -/
def startsName (c : Char) : Bool :=
  c.isAlpha || c == '_' || (0x7F ≤ c.toNat && c.toNat ≤ 0xFFFF)

def continuesName (c : Char) : Bool := startsName c || c.isDigit

def isHexDigit (c : Char) : Bool :=
  c.isDigit || ('a' ≤ c && c ≤ 'f') || ('A' ≤ c && c ≤ 'F')

/-- The blocks of characters beyond ASCII that are signs, given by their first and last one. -/
def signBlocks : List (Nat × Nat) :=
  [(0x7F, 0xA9), (0xAB, 0xB1), (0xB4, 0xB4), (0xB6, 0xB8), (0xBB, 0xBB), (0xBF, 0xBF),
    (0xD7, 0xD7), (0xF7, 0xF7), (0x2000, 0x206F), (0x20A0, 0x20FF), (0x2190, 0x245F),
    (0x2500, 0x2775), (0x2794, 0x2BFF), (0x3000, 0x3004), (0x3008, 0x3020), (0xD800, 0xF8FF),
    (0xFE00, 0xFE6F), (0xFFE0, 0xFFFF), (0x1F000, 0x1F0FF), (0x1F300, 0x1FAFF)]

/-- Letters and digits, which can follow the dollar sign of a placeholder. -/
def isAlphanumeric (c : Char) : Bool :=
  c.isAlphanum ||
    (0x7F ≤ c.toNat && !signBlocks.any fun block => block.1 ≤ c.toNat && c.toNat ≤ block.2)

/-! ## Parts of the text -/

/-- The text up to the quote that closes it, and what follows. A doubled quote stands for one.
The text is gathered in front of `before`, which is reversed. -/
def readQuoted (close : Char) (before : List Char) : List Char → Option (List Char × List Char)
  | [] => none
  | c :: rest =>
      if c = close then
        match rest with
        | next :: rest' =>
          if next = close then readQuoted close (close :: before) rest'
          else some (before.reverse, rest)
        | [] => some (before.reverse, [])
      else readQuoted close (c :: before) rest

/-- The same for a text between single quotes in which a backslash takes the next character
along, be it a quote or not. -/
def readEscaped (before : List Char) : List Char → Option (List Char × List Char)
  | [] => none
  | '\\' :: c :: rest => readEscaped (c :: before) rest
  | '\'' :: '\'' :: rest => readEscaped ('\'' :: before) rest
  | '\'' :: rest => some (before.reverse, rest)
  | c :: rest => readEscaped (c :: before) rest

def afterBlockComment : List Char → Option (List Char)
  | '*' :: '/' :: rest => some rest
  | _ :: rest => afterBlockComment rest
  | [] => none

def afterLineComment (text : List Char) : List Char := text.dropWhile (· != '\n')

def closing (mark : Char) : Char := if mark = '[' then ']' else mark

def startsToken : List Char → Bool
  | [] => false
  | '-' :: '-' :: _ | '/' :: '*' :: _ => false
  | c :: _ => !isBlank c

/-! ## Numbers -/

def takeSign : List Char → List Char × List Char
  | '+' :: rest => (['+'], rest)
  | '-' :: rest => (['-'], rest)
  | text => ([], text)

/-- The exponent at the front of a text, sign included, and what follows. Without a digit there
is none. -/
def takeExponent : List Char → List Char × List Char
  | [] => ([], [])
  | mark :: text =>
      let (plus, rest) := takeSign text
      if (mark = 'e' || mark = 'E') && (rest.head?.map Char.isDigit).getD false then
        (mark :: plus ++ rest.takeWhile Char.isDigit, rest.dropWhile Char.isDigit)
      else ([], mark :: text)

/-- The number that is written by what is given, with an exponent and an `L` perhaps behind it at
the front of a text, and what follows. -/
def takeNumberEnd (written text : List Char) : Token × List Char :=
  let (exponent, rest) := takeExponent text
  let number := String.ofList (written ++ exponent)
  match rest with
  | 'L' :: rest => (.number number true, rest)
  | rest => (.number number false, rest)

/-- The token that begins with a point, given what follows the point. Without digits the point is
a symbol. -/
def takePoint (text : List Char) : Token × List Char :=
  let digits := text.takeWhile Char.isDigit
  if digits.isEmpty then (.symbol ".", text)
  else takeNumberEnd ('.' :: digits) (text.dropWhile Char.isDigit)

/-- The token that begins with a digit, and what follows it. A zero and an `x` introduce a string
of bytes. -/
def takeDigits (c : Char) (text : List Char) : Token × List Char :=
  let digits := c :: text.takeWhile Char.isDigit
  match text.dropWhile Char.isDigit with
  | '.' :: rest =>
    takeNumberEnd (digits ++ '.' :: rest.takeWhile Char.isDigit) (rest.dropWhile Char.isDigit)
  | 'x' :: rest =>
    if digits = ['0'] then
      (.hexString (String.ofList (rest.takeWhile isHexDigit)), rest.dropWhile isHexDigit)
    else takeNumberEnd digits ('x' :: rest)
  | rest => takeNumberEnd digits rest

/-! ## Symbols -/

/-- The symbols of more than one character, each after the ones it begins. -/
def longSymbols : List String :=
  ["!~~*", "->>", "||/", "!~~", "!~*", "<=>", "~~*", "#>>", "->", "||", "|/", "=>", "==", "!=",
    "!!", "!~", "<=", "<>", "<<", "<@", ">=", ">>", "::", ":=", "&&", "^@", "~*", "~~", "#-", "#>",
    "@>", "@?", "@@"]

def takeSymbol (c : Char) (rest : List Char) : Token × List Char :=
  match longSymbols.find? fun long => long.toList.isPrefixOf (c :: rest) with
  | some found => (.symbol found, rest.drop (found.length - 1))
  | none =>
    if c = ':' || c = '@' then (.sign c (startsToken rest), rest)
    else (.symbol (String.singleton c), rest)

/-! ## Tokens -/

def takeWord (c : Char) (rest : List Char) : Token × List Char :=
  let text := String.ofList (c :: rest.takeWhile continuesName)
  (.word text (capitalized text), rest.dropWhile continuesName)

def ofRead (make : String → Token) (read : Option (List Char × List Char)) :
    Option (Option Token × List Char) :=
  read.map fun read => (some (make (String.ofList read.1)), read.2)

def ofTaken (taken : Token × List Char) : Option (Option Token × List Char) :=
  some (some taken.1, taken.2)

def continuesPlaceholder (c : Char) : Bool := isAlphanumeric c || c == '_' || c == '$'

def takePlaceholder (p : Char → Bool) (c : Char) (rest : List Char) : Token × List Char :=
  (.placeholder (String.ofList (c :: rest.takeWhile p)), rest.dropWhile p)

/-- Take the token that begins with `c`, if one does, and tell what follows it. Nothing is taken
where a quote or comment is left open, nor where a point is put before an underscore, unless it
comes right after a word. -/
def take (afterWord : Bool) (c : Char) (rest : List Char) : Option (Option Token × List Char) :=
  if isBlank c then some (none, rest)
  else if (c = 'N' || c = 'n') && rest.head? = some '\'' then
    ofRead .nationalString (readQuoted '\'' [] rest.tail)
  else if (c = 'X' || c = 'x') && rest.head? = some '\'' then
    ofRead .hexString (readEscaped [] rest.tail)
  else if startsName c then ofTaken (takeWord c rest)
  else if c = '"' || c = '[' || c = '\x60' then
    ofRead (.quoted c) (readQuoted (closing c) [] rest)
  else if c = '\'' then ofRead .string (readQuoted c [] rest)
  else if c.isDigit then ofTaken (takeDigits c rest)
  else if c = '.' && rest.head? = some '_' then
    if afterWord then ofTaken (.symbol ".", rest) else none
  else if c = '.' then ofTaken (takePoint rest)
  else if c = '-' && rest.head? = some '-' then some (none, afterLineComment rest)
  else if c = '/' && rest.head? = some '*' then
    (afterBlockComment rest.tail).map fun rest => (none, rest)
  else if c = '?' then ofTaken (takePlaceholder Char.isDigit c rest)
  else if c = '$' then ofTaken (takePlaceholder continuesPlaceholder c rest)
  else ofTaken (takeSymbol c rest)

def isName : Token → Bool
  | .word .. | .quoted .. => true
  | _ => false

/-! ## Taking shortens the text -/

theorem dropWhile_length_le (p : Char → Bool) (text : List Char) :
    (text.dropWhile p).length ≤ text.length := (List.dropWhile_suffix p).length_le

theorem readQuoted_length_le (close : Char) (before text : List Char)
    (read : List Char × List Char) (closed : readQuoted close before text = some read) :
    read.2.length ≤ text.length := by
  fun_induction readQuoted close before text with
  | case1 => simp at closed
  | case2 before rest ih =>
    have := ih closed
    simp only [List.length_cons]
    omega
  | case3 before next rest other =>
    simp only [Option.some.injEq] at closed
    simp [← closed]
  | case4 before =>
    simp only [Option.some.injEq] at closed
    simp [← closed]
  | case5 before c rest other ih =>
    have := ih closed
    simp only [List.length_cons]
    omega

theorem readEscaped_length_le (before text : List Char) (read : List Char × List Char)
    (closed : readEscaped before text = some read) : read.2.length ≤ text.length := by
  fun_induction readEscaped before text with
  | case1 => simp at closed
  | case2 before c rest ih =>
    have := ih closed
    simp only [List.length_cons]
    omega
  | case3 before rest ih =>
    have := ih closed
    simp only [List.length_cons]
    omega
  | case4 before rest other =>
    simp only [Option.some.injEq] at closed
    simp [← closed]
  | case5 before c rest _ _ _ ih =>
    have := ih closed
    simp only [List.length_cons]
    omega

theorem afterBlockComment_length_le (text rest : List Char)
    (closed : afterBlockComment text = some rest) : rest.length ≤ text.length := by
  fun_induction afterBlockComment text with
  | case1 rest' =>
    simp only [Option.some.injEq] at closed
    simp only [← closed, List.length_cons]
    omega
  | case2 c rest' other ih =>
    have := ih closed
    simp only [List.length_cons]
    omega
  | case3 => simp at closed

theorem takeSign_length_le (text : List Char) : (takeSign text).2.length ≤ text.length := by
  unfold takeSign
  split <;> simp

theorem takeExponent_length_le (text : List Char) :
    (takeExponent text).2.length ≤ text.length := by
  cases text with
  | nil => simp [takeExponent]
  | cons mark text =>
    have signed := takeSign_length_le text
    have digits := dropWhile_length_le Char.isDigit (takeSign text).2
    simp only [takeExponent]
    split <;> simp only [List.length_cons] <;> omega

theorem takeNumberEnd_length_le (written text : List Char) :
    (takeNumberEnd written text).2.length ≤ text.length := by
  have exponent := takeExponent_length_le text
  simp only [takeNumberEnd]
  split
  · rename_i rest after
    rw [after, List.length_cons] at exponent
    exact Nat.le_of_succ_le exponent
  · exact exponent

theorem takePoint_length_le (text : List Char) : (takePoint text).2.length ≤ text.length := by
  simp only [takePoint]
  split
  · exact Nat.le_refl _
  · exact Nat.le_trans (takeNumberEnd_length_le _ _) (dropWhile_length_le _ _)

theorem takeDigits_length_le (c : Char) (text : List Char) :
    (takeDigits c text).2.length ≤ text.length := by
  have digits := dropWhile_length_le Char.isDigit text
  simp only [takeDigits]
  split
  · rename_i rest after
    rw [after, List.length_cons] at digits
    refine Nat.le_trans (takeNumberEnd_length_le _ _) ?_
    exact Nat.le_trans (dropWhile_length_le _ _) (Nat.le_of_succ_le digits)
  · rename_i rest after
    rw [after, List.length_cons] at digits
    split
    · exact Nat.le_trans (dropWhile_length_le _ _) (Nat.le_of_succ_le digits)
    · exact Nat.le_trans (takeNumberEnd_length_le _ _) digits
  · exact Nat.le_trans (takeNumberEnd_length_le _ _) digits

theorem takeSymbol_length_le (c : Char) (rest : List Char) :
    (takeSymbol c rest).2.length ≤ rest.length := by
  unfold takeSymbol
  split
  · simp
  · split <;> simp

def Leaves (bound : Nat) (taken : Option (Option Token × List Char)) : Prop :=
  ∀ token rest, taken = some (token, rest) → rest.length ≤ bound

namespace Leaves

variable {bound : Nat}

theorem none : Leaves bound none := fun _ _ taken => by cases taken

theorem ite {p : Prop} [Decidable p] {a b : Option (Option Token × List Char)}
    (whenTrue : Leaves bound a) (whenFalse : Leaves bound b) :
    Leaves bound (if p then a else b) := by
  by_cases holds : p
  · rw [if_pos holds]; exact whenTrue
  · rw [if_neg holds]; exact whenFalse

theorem some {token : Option Token} {rest : List Char} (short : rest.length ≤ bound) :
    Leaves bound (some (token, rest)) := fun _ _ taken => by
  cases taken
  exact short

theorem ofTaken {found : Token × List Char} (short : found.2.length ≤ bound) :
    Leaves bound (ofTaken found) := some short

theorem ofRead {make : String → Token} {read : Option (List Char × List Char)}
    (short : ∀ r, read = .some r → r.2.length ≤ bound) : Leaves bound (ofRead make read) := by
  intro token rest taken
  simp only [Token.ofRead, Option.map_eq_some_iff, Prod.mk.injEq] at taken
  obtain ⟨r, closed, -, same⟩ := taken
  exact same ▸ short r closed

end Leaves

theorem take_leaves (afterWord : Bool) (c : Char) (text : List Char) :
    Leaves text.length (take afterWord c text) := by
  have tail : text.tail.length ≤ text.length := by simp
  unfold take
  refine .ite (.some (Nat.le_refl _)) <| .ite (.ofRead fun r closed => ?_) <|
    .ite (.ofRead fun r closed => ?_) <| .ite (.ofTaken (dropWhile_length_le _ _)) <|
    .ite (.ofRead (readQuoted_length_le _ _ _)) <| .ite (.ofRead (readQuoted_length_le _ _ _)) <|
    .ite (.ofTaken (takeDigits_length_le _ _)) <|
    .ite (.ite (.ofTaken (Nat.le_refl _)) .none) <| .ite (.ofTaken (takePoint_length_le _)) <|
    .ite (.some (dropWhile_length_le _ _)) <| .ite ?_ <|
    .ite (.ofTaken (dropWhile_length_le _ _)) <| .ite (.ofTaken (dropWhile_length_le _ _))
      (.ofTaken (takeSymbol_length_le _ _))
  · exact Nat.le_trans (readQuoted_length_le _ _ _ _ closed) tail
  · exact Nat.le_trans (readEscaped_length_le _ _ _ closed) tail
  · intro token rest taken
    simp only [Option.map_eq_some_iff, Prod.mk.injEq] at taken
    obtain ⟨after, closed, -, same⟩ := taken
    exact same ▸ Nat.le_trans (afterBlockComment_length_le _ _ closed) tail

def ofTextAfter (afterWord : Bool) (text : List Char) : Option (List Token) :=
  match text with
  | [] => some []
  | c :: text =>
    match _taken : take afterWord c text with
    | none => none
    | some (none, rest) => ofTextAfter false rest
    | some (some token, rest) => (ofTextAfter token.isName rest).map (token :: ·)
termination_by text.length
decreasing_by all_goals exact Nat.lt_succ_of_le (take_leaves _ _ _ _ _ _taken)

def ofText (text : List Char) : Option (List Token) := ofTextAfter false text

/-! ## Tests -/

/-- The token is the given keyword, which is written in capitals here. Quoted names are no
keywords. -/
def isKeyword (token : Token) (keyword : String) : Bool :=
  match token with
  | .word _ capitals => capitals == keyword
  | _ => false

def isSymbol (token : Token) (text : String) : Bool :=
  match token with
  | .symbol other => other == text
  | _ => false

end Token

end Tabular.Sql
