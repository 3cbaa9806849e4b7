import Tabular.Proofs.Csv.RecordInHand

/-!
The ways to read a text. One that begins with a byte-order mark, or with line breaks and a mark, is
read as it stands, without the mark, or not at all. No two of these make the same records of it.
-/
namespace Tabular.Csv

open Grammar

def unflagFirst : List Record → List Record
  | (c :: cells) :: rest => ({ c with quoted := false } :: cells) :: rest
  | rs => rs

/-- The records that a text is read for when `front` is the first of it that the tokenizer is handed,
the line breaks in front of the first record aside. A mark that lies whole in there is left out, and
then the flag of the first cell, which was taken from the mark, is never set. Nothing but the mark is
taken for the end of the data. -/
def readAs (delimiter : UInt8) (front text : Bytes) : List Record :=
  if startsWithMark front then
    if front = byteOrderMark then []
    else unflagFirst
      (records delimiter ((text.dropWhile Byte.isLineBreak).drop byteOrderMark.length))
  else records delimiter text

theorem readAs_literal (delimiter : UInt8) {front : Bytes} (unmarked : startsWithMark front = false) :
    readAs delimiter front = records delimiter := by
  funext text
  rw [readAs, if_neg (by simp [unmarked])]

theorem readAs_marked (delimiter : UInt8) {rest : Bytes} (some : rest ≠ []) (text : Bytes) :
    readAs delimiter (byteOrderMark ++ rest) text = unflagFirst
      (records delimiter ((text.dropWhile Byte.isLineBreak).drop byteOrderMark.length)) := by
  have marked : startsWithMark (byteOrderMark ++ rest) = true :=
    (startsWithMark_iff _).mpr ⟨rest, rfl⟩
  rw [readAs, if_pos marked, if_neg (by simpa using some)]

@[simp] theorem readAs_mark (delimiter : UInt8) (text : Bytes) :
    readAs delimiter byteOrderMark text = [] := rfl

@[simp] theorem readAs_nil (delimiter : UInt8) (front : Bytes) :
    readAs delimiter front [] = [] := by
  unfold readAs
  split
  · split
    · rfl
    · rw [List.dropWhile_nil, List.drop_nil, records_nil]
      rfl
  · exact records_nil delimiter

theorem readAs_breaks (delimiter : UInt8) (front : Bytes) {breaks : Bytes}
    (blank : ∀ b ∈ breaks, Byte.isLineBreak b = true) (text : Bytes) :
    readAs delimiter front (breaks ++ text) = readAs delimiter front text := by
  have same : (breaks ++ text).dropWhile Byte.isLineBreak = text.dropWhile Byte.isLineBreak :=
    List.dropWhile_append_of_pos blank
  rw [readAs, readAs, same, ← records_dropWhile delimiter (breaks ++ text), same, records_dropWhile]

theorem unflagFirst_closeCell (delimiter : UInt8) (c : Cell) (text : Bytes) (rest : List Record) :
    unflagFirst ((closeCell delimiter c text).1 :: rest) =
      (closeCell delimiter { c with quoted := false } text).1 :: rest := by
  unfold closeCell
  split
  · rfl
  · split <;> rfl

theorem closeCell_rest (delimiter : UInt8) (c c' : Cell) (text : Bytes) :
    (closeCell delimiter c text).2 = (closeCell delimiter c' text).2 := by
  unfold closeCell
  split
  · rfl
  · split <;> rfl

/-! ## A mark that is left out is missed -/

/-- A cell in quotes with nothing in it that would end one is no longer than the same text without
the quotes. -/
theorem length_quotedRest_le {delimiter : UInt8} (quote : endsCell delimiter Byte.quote = false)
    (text : Bytes) (plain : ∀ b ∈ (quotedRest delimiter text).1, endsCell delimiter b = false) :
    (quotedRest delimiter text).1.length ≤ (plainText delimiter text).1.length := by
  fun_induction quotedText text with
  | case1 => exact Nat.le_refl _
  | case2 b =>
    by_cases closes : b = Byte.quote
    · rw [closes]
      exact Nat.zero_le _
    · rw [quotedRest_cons delimiter closes] at plain ⊢
      rw [plainText_cons_more (plain b List.mem_cons_self)]
      exact Nat.le_refl _
  | case3 rest inside after same ih =>
    have doubled : quotedRest delimiter (Byte.quote :: Byte.quote :: rest) =
        (Byte.quote :: (quotedRest delimiter rest).1, (quotedRest delimiter rest).2) :=
      quotedRest_quote delimiter _
    rw [doubled] at plain ⊢
    rw [plainText_cons_more quote, plainText_cons_more quote]
    have shorter := ih fun b member => plain b (List.mem_cons_of_mem _ member)
    simp only [List.length_cons]
    omega
  | case4 next rest other =>
    have closed : quotedRest delimiter (Byte.quote :: next :: rest) =
        plainText delimiter (next :: rest) := by
      rw [quotedRest_quote, resume, List.head?_cons, if_neg fun same => other (Option.some.inj same)]
    rw [closed, plainText_cons_more quote]
    exact Nat.le_succ _
  | case5 b next rest other inside after same ih =>
    rw [quotedRest_cons delimiter other] at plain ⊢
    rw [plainText_cons_more (plain b List.mem_cons_self)]
    exact Nat.succ_le_succ (ih fun b member => plain b (List.mem_cons_of_mem _ member))

def firstCell (rs : List Record) : Option Cell := rs.head?.bind List.head?

theorem firstCell_closeCell (delimiter : UInt8) (c : Cell) (text : Bytes) (rest : List Record) :
    firstCell ((closeCell delimiter c text).1 :: rest) = some c := by
  unfold closeCell
  split
  · rfl
  · split <;> rfl

@[simp] theorem length_unflagFirst (rs : List Record) : (unflagFirst rs).length = rs.length := by
  unfold unflagFirst
  split <;> rfl

theorem plainText_endsCell (delimiter : UInt8) (text : Bytes) :
    ∀ b ∈ (plainText delimiter text).1, endsCell delimiter b = false := by
  intro b member
  simpa using List.mem_takeWhile_imp member

theorem records_mark (text : Bytes) :
    let plain := plainText Byte.comma text
    let c : Cell := { bytes := byteOrderMark ++ plain.1, quoted := false }
    records Byte.comma (byteOrderMark ++ text) =
      (closeCell Byte.comma c plain.2).1 :: records Byte.comma (closeCell Byte.comma c plain.2).2 := by
  rw [records_eq_cons _ _ (by simp [byteOrderMark]) (by rintro b ⟨⟩; rfl), record_eq]
  rfl

theorem bytes_mark_ne {b : UInt8} (begun : Byte.isLineBreak b = false) (rest : Bytes) :
    (cell Byte.comma (b :: rest)).1.bytes ≠
      byteOrderMark ++ (plainText Byte.comma (b :: rest)).1 := by
  intro same
  have length := congrArg List.length same
  rw [List.length_append, show byteOrderMark.length = 3 from rfl] at length
  by_cases quote : b = Byte.quote
  · subst quote
    -- Nothing in the quotes would end the cell, so quotes do not make it longer.
    have opened : (cell Byte.comma (Byte.quote :: rest)).1.bytes = (quotedRest Byte.comma rest).1 :=
      rfl
    rw [plainText_cons_more rfl, opened] at same length
    have quote : endsCell Byte.comma Byte.quote = false := rfl
    have shorter := length_quotedRest_le quote rest (by
      rw [same]
      intro b member
      rcases List.mem_append.mp member with first | later
      · exact (show ∀ b ∈ byteOrderMark, endsCell Byte.comma b = false by decide +kernel) b first
      · rw [← plainText_cons_more rfl] at later
        exact plainText_endsCell _ _ b later)
    rw [List.length_cons] at length
    omega
  · rw [cell_cons_plain _ quote] at length
    dsimp only at length
    omega

theorem records_mark_ne (text : Bytes) :
    unflagFirst (records Byte.comma text) ≠ records Byte.comma (byteOrderMark ++ text) := by
  rw [records_mark]
  intro same
  cases text with
  | nil =>
    rw [records_nil] at same
    cases same
  | cons b rest =>
    cases begun : Byte.isLineBreak b with
    | true =>
      -- The line break ends a record that is the mark.
      have other : b ≠ Byte.comma := by
        rintro rfl
        cases begun
      have ends : endsCell Byte.comma b = true := by rw [endsCell, begun, Bool.or_true]
      have count := congrArg List.length same
      rw [plainText_cons_end ends, closeCell, if_neg other, length_unflagFirst, List.length_cons,
        ← records_dropWhile, List.dropWhile_cons_of_pos begun, records_dropWhile] at count
      exact absurd count (Nat.ne_of_lt (Nat.lt_succ_self _))
    | false =>
      have first := congrArg firstCell same
      rw [records_eq_cons _ _ (List.cons_ne_nil _ _) (by rintro c ⟨⟩; exact begun), record_eq,
        unflagFirst_closeCell, firstCell_closeCell, firstCell_closeCell] at first
      exact bytes_mark_ne begun rest (congrArg Cell.bytes (Option.some.inj first))

/-- A text is read as it stands exactly if what is taken first of it does not begin with a mark. -/
theorem readAs_eq_iff {front text : Bytes} (slice : front <+: text.dropWhile Byte.isLineBreak) :
    readAs Byte.comma front text = records Byte.comma text ↔ startsWithMark front = false := by
  constructor
  · intro same
    cases marked : startsWithMark front with
    | false => rfl
    | true =>
      obtain ⟨rest, rfl⟩ := (startsWithMark_iff front).mp marked
      obtain ⟨later, split⟩ := slice
      rw [← records_dropWhile, ← split, List.append_assoc] at same
      by_cases some : rest = []
      · simp [some, records_mark] at same
      · rw [readAs_marked _ some, ← split, List.append_assoc, List.drop_left] at same
        exact absurd same (records_mark_ne _)
  · intro unmarked
    rw [readAs_literal _ unmarked]

end Tabular.Csv
