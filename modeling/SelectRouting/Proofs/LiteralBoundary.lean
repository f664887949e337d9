import SelectRouting.Text.Quotes
import SelectRouting.Token.Scan

/-!
# Where a literal ends

A number and a quoted text are read the same before any other text that does not go on with them
(`Token.readNumber_before`, `Token.readText_before`, `Token.readBlob_before`). Quoted text that is
closed ends at its quote, unless the quote is doubled.
-/

namespace SelectRouting

namespace Token

section Digits
variable {p : Char → Bool} {tail rest rest' : List Char}

/-- The characters of `tail` and no more belong to the front of the text. -/
theorem takeWhile_length_eq (reaches : ((tail ++ rest).takeWhile p).length = tail.length) :
    (∀ c ∈ tail, p c = true) ∧ ∀ d ∈ rest.head?, p d = false := by
  induction tail with
  | nil =>
    refine ⟨by simp, fun d first => ?_⟩
    obtain ⟨others, rfl⟩ := List.head?_eq_some_iff.mp first
    refine Bool.eq_false_iff.mpr fun is => ?_
    simp [is] at reaches
  | cons c tail ih =>
    by_cases is : p c = true
    · rw [List.cons_append, List.takeWhile_cons_of_pos is, List.length_cons, List.length_cons]
        at reaches
      obtain ⟨all, stops⟩ := ih (Nat.succ.inj reaches)
      exact ⟨by simpa [is] using all, stops⟩
    · simp [is] at reaches

theorem takeWhile_append_stop (all : ∀ c ∈ tail, p c = true) (stops : ∀ d ∈ rest.head?, p d = false) :
    (tail ++ rest).takeWhile p = tail ∧ (tail ++ rest).dropWhile p = rest := by
  rw [List.takeWhile_append_of_pos all, List.dropWhile_append_of_pos all]
  cases rest with
  | nil => simp
  | cons d rest => simp [stops d rfl]

end Digits

section Number
variable {first : Char} {tail rest rest' : List Char} {kind : TokenKind}

/-- Where a number ends before `rest`, it ends before `rest'`. -/
structure NumberBoundary (rest rest' : List Char) : Prop where
  digit : (∀ d ∈ rest.head?, d.isDigit = false) → ∀ d ∈ rest'.head?, d.isDigit = false
  fraction : fractionDigits rest = [] → fractionDigits rest' = []
  exponent : exponentPart? rest = none → exponentPart? rest' = none

theorem exponentPart_length {cs : List Char} {exponent : ExponentPart}
    (found : exponentPart? cs = some exponent) : 2 ≤ exponent.length := by
  unfold exponentPart? at found
  split at found
  · split at found
    · split at found
      · obtain rfl := Option.some.inj found
        simp
      split at found
      · obtain rfl := Option.some.inj found
        simp
      · cases found
    · cases found
  · cases found

/-- An exponent that ends before `rest` is the same before `rest'`. -/
theorem exponentPart_before {part : Option ExponentPart}
    (found : exponentPart? (tail ++ rest) = part)
    (reaches : (part.map ExponentPart.length).getD 0 = tail.length)
    (boundary : NumberBoundary rest rest') : exponentPart? (tail ++ rest') = part := by
  match tail with
  | [] =>
    cases part with
    | none => exact boundary.exponent found
    | some exponent =>
      have long := exponentPart_length found
      simp at reaches
      omega
  | [x] =>
    cases part with
    | none => simp at reaches
    | some exponent =>
      have long := exponentPart_length found
      simp at reaches
      omega
  | x :: y :: tail =>
    simp only [List.cons_append, exponentPart?] at found ⊢
    split at found
    · next letter =>
      rw [if_pos letter]
      split at found
      · next digit =>
        rw [if_pos digit]
        subst found
        have inner : ((tail ++ rest).takeWhile Char.isDigit).length = tail.length := by
          simpa using reaches
        obtain ⟨all, stops⟩ := takeWhile_length_eq inner
        rw [(takeWhile_append_stop all stops).1,
          (takeWhile_append_stop all (boundary.digit stops)).1]
      next noDigit =>
      rw [if_neg noDigit]
      split at found
      · next sign =>
        rw [if_pos sign]
        subst found
        have inner : ((tail ++ rest).takeWhile Char.isDigit).length = tail.length := by
          simpa using reaches
        obtain ⟨all, stops⟩ := takeWhile_length_eq inner
        rw [(takeWhile_append_stop all stops).1,
          (takeWhile_append_stop all (boundary.digit stops)).1]
      · subst found
        simp at reaches
    · subst found
      simp at reaches

/-- Digits that end in `tail` or before `rest` are the same before `rest'`. -/
theorem digits_before (boundary : NumberBoundary rest rest')
    (within : ((tail ++ rest).takeWhile Char.isDigit).length ≤ tail.length) :
    ∃ digits behind, tail = digits ++ behind ∧
      (tail ++ rest).takeWhile Char.isDigit = digits ∧
      (tail ++ rest).dropWhile Char.isDigit = behind ++ rest ∧
      (tail ++ rest').takeWhile Char.isDigit = digits ∧
      (tail ++ rest').dropWhile Char.isDigit = behind ++ rest' := by
  induction tail with
  | nil =>
    have none : ([] ++ rest).takeWhile Char.isDigit = [] :=
      List.eq_nil_of_length_eq_zero (Nat.le_zero.mp within)
    have stops := (@takeWhile_length_eq Char.isDigit [] rest (by rw [none])).2
    have one := @takeWhile_append_stop Char.isDigit [] rest (by simp) stops
    have two := @takeWhile_append_stop Char.isDigit [] rest' (by simp) (boundary.digit stops)
    exact ⟨[], [], rfl, one.1, one.2, two.1, two.2⟩
  | cons c tail ih =>
    simp only [List.cons_append]
    by_cases digit : c.isDigit = true
    · rw [List.cons_append, List.takeWhile_cons_of_pos digit] at within
      obtain ⟨digits, behind, rfl, one, two, three, four⟩ := ih (Nat.le_of_succ_le_succ within)
      refine ⟨c :: digits, behind, rfl, ?_⟩
      simp only [List.takeWhile_cons_of_pos digit, List.dropWhile_cons_of_pos digit, one, two,
        three, four, and_self]
    · refine ⟨[], c :: tail, rfl, ?_⟩
      simp only [List.takeWhile_cons_of_neg digit, List.dropWhile_cons_of_neg digit,
        List.cons_append, and_self]

/-- A fraction that ends in `tail` or before `rest` is the same before `rest'`. -/
theorem fraction_before (boundary : NumberBoundary rest rest') {length : Nat}
    (is : length = if (fractionDigits (tail ++ rest)).isEmpty then 0
      else (fractionDigits (tail ++ rest)).length + 1)
    (within : length ≤ tail.length) :
    ∃ front behind, tail = front ++ behind ∧ front.length = length ∧
      fractionDigits (tail ++ rest') = fractionDigits (tail ++ rest) := by
  by_cases point : tail.head? = some '.'
  · obtain ⟨tail, rfl⟩ := List.head?_eq_some_iff.mp point
    have digitsWithin : ((tail ++ rest).takeWhile Char.isDigit).length ≤ tail.length := by
      by_cases none : (tail ++ rest).takeWhile Char.isDigit = []
      · simp [none]
      · have some : (fractionDigits ('.' :: (tail ++ rest))).isEmpty = false := by
          simpa [fractionDigits] using none
        rw [List.cons_append, some] at is
        rw [is] at within
        exact Nat.le_of_succ_le_succ within
    obtain ⟨digits, behind, rfl, one, _, two, _⟩ := digits_before boundary digitsWithin
    have value : fractionDigits ('.' :: (digits ++ behind) ++ rest) = digits := by
      simp only [List.cons_append, fractionDigits, one]
    have value' : fractionDigits ('.' :: (digits ++ behind) ++ rest') = digits := by
      simp only [List.cons_append, fractionDigits, two]
    rw [value] at is ⊢
    by_cases none : digits = []
    · exact ⟨[], _, rfl, by simp [is, none], value'⟩
    · exact ⟨'.' :: digits, behind, rfl, by simp [is, none], value'⟩
  · cases tail with
    | nil =>
      rw [List.nil_append] at is ⊢
      have none : fractionDigits rest = [] := by simpa [is] using within
      exact ⟨[], [], rfl, by simp [is, none], (boundary.fraction none).trans none.symm⟩
    | cons c tail =>
      have other : c ≠ '.' := by simpa using point
      have none (rest : List Char) : fractionDigits (c :: tail ++ rest) = [] := by
        simp [fractionDigits, other]
      rw [none] at is
      exact ⟨[], c :: tail, rfl, by simp [is], by rw [none, none]⟩

/-- A number that ends before `rest` is the same before `rest'`. -/
theorem readNumber_before (reads : readNumber first (tail ++ rest) = (kind, tail.length))
    (boundary : NumberBoundary rest rest') :
    readNumber first (tail ++ rest') = (kind, tail.length) := by
  have reaches : (readNumber first (tail ++ rest)).2 = tail.length := by rw [reads]
  suffices same : readNumber first (tail ++ rest') = readNumber first (tail ++ rest) by
    rw [same, reads]
  unfold readNumber at reaches ⊢
  dsimp only at reaches ⊢
  have digitsWithin : ((tail ++ rest).takeWhile Char.isDigit).length ≤ tail.length := by
    split at reaches
    · simp only [List.length_cons] at reaches
      omega
    · simp only [List.length_cons] at reaches
      omega
  obtain ⟨digits, behind, rfl, one, two, three, four⟩ := digits_before boundary digitsWithin
  rw [one, two] at reaches ⊢
  rw [three, four]
  generalize is : (if (fractionDigits (behind ++ rest)).isEmpty = true then 0
    else (fractionDigits (behind ++ rest)).length + 1) = length at reaches ⊢
  have fractionWithin : length ≤ behind.length := by
    split at reaches
    · simp only [List.length_cons, List.length_append] at reaches
      omega
    · simp only [List.length_cons, List.length_append] at reaches
      omega
  obtain ⟨front, last, rfl, rfl, same⟩ := fraction_before boundary is.symm fractionWithin
  have cut (rest : List Char) : (front ++ last ++ rest).drop front.length = last ++ rest := by
    rw [List.append_assoc, List.drop_left]
  rw [same, is, cut, cut]
  rw [cut] at reaches
  generalize found : exponentPart? (last ++ rest) = part at reaches ⊢
  have last_reaches : (part.map ExponentPart.length).getD 0 = last.length := by
    cases part with
    | none =>
      simp only [List.length_cons, List.length_append] at reaches
      simp only [Option.map_none, Option.getD_none]
      omega
    | some exponent =>
      simp only [List.length_cons, List.length_append] at reaches
      simp only [Option.map_some, Option.getD_some]
      omega
  rw [exponentPart_before found last_reaches boundary]

end Number

section Quoted
variable {close : Char} {doubling : Bool} {rest rest' : List Char}

/-- Quoted text takes at least its closing character. -/
theorem readQuoted_length {cs value : List Char} {length : Nat}
    (found : readQuoted? close doubling cs = some (value, length)) : 0 < length := by
  unfold readQuoted? at found
  split at found
  · cases found
  · split at found
    · simp only [Option.some.injEq, Prod.mk.injEq] at found
      omega
    · cases found
  · split at found
    · split at found
      · obtain ⟨_, _, same⟩ := Option.map_eq_some_iff.mp found
        simp only [Prod.mk.injEq] at same
        omega
      · simp only [Option.some.injEq, Prod.mk.injEq] at found
        omega
    · obtain ⟨_, _, same⟩ := Option.map_eq_some_iff.mp found
      simp only [Prod.mk.injEq] at same
      omega

/-- Only the closing character is quoted text of one character. -/
theorem readQuoted_single {c : Char} {value : List Char}
    (found : readQuoted? close doubling (c :: rest) = some (value, 1)) :
    (c == close) = true ∧ value = [] := by
  cases rest with
  | nil =>
    simp only [readQuoted?] at found
    split at found
    · next is => simpa [is] using found.symm
    · cases found
  | cons d rest =>
    simp only [readQuoted?] at found
    split at found
    · next is =>
      split at found
      · obtain ⟨_, _, same⟩ := Option.map_eq_some_iff.mp found
        simp at same
      · simpa [is] using found.symm
    · obtain ⟨⟨_, _⟩, inner, same⟩ := Option.map_eq_some_iff.mp found
      have long := readQuoted_length inner
      simp only [Prod.mk.injEq] at same
      omega

/-- Quoted text that is closed before `rest` is the same before text that does not go on with the
closing character. -/
theorem readQuoted_before (tail : List Char) {value : List Char}
    (found : readQuoted? close doubling (tail ++ rest) = some (value, tail.length))
    (stops : doubling = true → rest'.head? ≠ some close) :
    readQuoted? close doubling (tail ++ rest') = some (value, tail.length) := by
  match tail with
  | [] => exact absurd (readQuoted_length found) (Nat.lt_irrefl 0)
  | [c] =>
    obtain ⟨closes, rfl⟩ := readQuoted_single found
    cases rest' with
    | nil => simp [readQuoted?, closes]
    | cons d rest' =>
      have once : (doubling && d == close) = false := by
        cases doubling with
        | false => rfl
        | true => simpa using stops rfl
      simp [readQuoted?, closes, once]
  | c :: d :: tail =>
    simp only [List.cons_append, readQuoted?] at found ⊢
    split at found
    · next is =>
      rw [if_pos is]
      split at found
      · next twice =>
        rw [if_pos twice]
        obtain ⟨⟨inner, length⟩, found, same⟩ := Option.map_eq_some_iff.mp found
        simp only [List.length_cons, Prod.mk.injEq] at same
        obtain ⟨rfl, same⟩ := same
        obtain rfl : length = tail.length := by omega
        rw [readQuoted_before tail found stops]
        rfl
      · simp at found
    · next other =>
      rw [if_neg other]
      obtain ⟨⟨inner, length⟩, found, same⟩ := Option.map_eq_some_iff.mp found
      simp only [List.length_cons, Prod.mk.injEq] at same
      obtain ⟨rfl, same⟩ := same
      obtain rfl : length = (d :: tail).length := by simpa using same
      have inner_before := readQuoted_before (d :: tail) found stops
      rw [List.cons_append] at inner_before
      rw [inner_before]
      rfl
termination_by tail.length

/-- Behind quoted text in which the closing character is doubled stands another character. -/
theorem readQuoted_stops (tail : List Char) {value : List Char}
    (found : readQuoted? close true (tail ++ rest) = some (value, tail.length)) :
    rest.head? ≠ some close := by
  match tail with
  | [] => exact absurd (readQuoted_length found) (Nat.lt_irrefl 0)
  | [c] =>
    obtain ⟨closes, rfl⟩ := readQuoted_single found
    intro again
    obtain ⟨behind, rfl⟩ := List.head?_eq_some_iff.mp again
    simp [readQuoted?, closes] at found
  | c :: d :: tail =>
    simp only [List.cons_append, readQuoted?] at found
    split at found
    · split at found
      · obtain ⟨⟨inner, length⟩, found, same⟩ := Option.map_eq_some_iff.mp found
        simp only [List.length_cons, Prod.mk.injEq] at same
        obtain rfl : length = tail.length := by omega
        exact readQuoted_stops tail found
      · simp at found
    · obtain ⟨⟨inner, length⟩, found, same⟩ := Option.map_eq_some_iff.mp found
      obtain rfl : length = (d :: tail).length := by simpa using congrArg Prod.snd same
      exact readQuoted_stops (d :: tail) found
termination_by tail.length

/-- Quoted text that is read without an error, or before more text, is closed. -/
theorem readText_before {kind : String → TokenKind} {error : LexicalError} {tail : List Char}
    {read : TokenKind} (reads : readText close doubling kind error (tail ++ rest) = (read, tail.length))
    (valid : rest = [] → ∀ error, read ≠ .invalid error)
    (stops : doubling = true → rest.head? ≠ some close → rest'.head? ≠ some close) :
    readText close doubling kind error (tail ++ rest') = (read, tail.length) := by
  unfold readText at reads ⊢
  split at reads
  · next value length found =>
    obtain ⟨rfl, rfl⟩ := Prod.mk.inj reads
    have ends : doubling = true → rest'.head? ≠ some close := by
      rintro rfl
      exact stops rfl (readQuoted_stops tail found)
    rw [readQuoted_before tail found ends]
  · have all : rest = [] := by simpa using (Prod.mk.inj reads).2
    exact absurd (Prod.mk.inj reads).1.symm (valid all _)

/-- The digits of a blob and the quote behind them end it. -/
theorem readBlob_before {tail : List Char} {read : TokenKind}
    (reads : readBlob (tail ++ rest) = (read, tail.length))
    (valid : rest = [] → ∀ error, read ≠ .invalid error) :
    readBlob (tail ++ rest') = (read, tail.length) := by
  unfold readBlob at reads ⊢
  dsimp only at reads ⊢
  split at reads
  · next none =>
    have digits := List.takeWhile_append_dropWhile (p := isHexDigit) (l := tail ++ rest)
    rw [List.head?_eq_none_iff.mp none, List.append_nil] at digits
    have all : rest = [] := by simpa [digits] using (Prod.mk.inj reads).2
    exact absurd (Prod.mk.inj reads).1.symm (valid all _)
  · next c first =>
    obtain ⟨behind, dropped⟩ := List.head?_eq_some_iff.mp first
    have whole : tail ++ rest = (tail ++ rest).takeWhile isHexDigit ++ [c] ++ behind := by
      rw [List.append_assoc, List.singleton_append, ← dropped, List.takeWhile_append_dropWhile]
    have digit := List.all_takeWhile (p := isHexDigit) (l := tail ++ rest)
    have noDigit : isHexDigit c = false := by
      have stops := List.head?_dropWhile_not isHexDigit (tail ++ rest)
      simpa [first] using stops
    obtain ⟨same, length⟩ := Prod.mk.inj reads
    generalize (tail ++ rest).takeWhile isHexDigit = digits at whole digit same length
    obtain ⟨rfl, rfl⟩ := List.append_inj whole (by simpa using length.symm)
    have all : ∀ d ∈ digits, isHexDigit d = true := List.all_eq_true.mp digit
    have cut : digits ++ [c] ++ rest' = digits ++ (c :: rest') := List.append_assoc _ _ _
    obtain ⟨taken, left⟩ := @takeWhile_append_stop isHexDigit digits (c :: rest') all
      (by simpa using noDigit)
    rw [cut, taken, left, List.head?_cons]
    simpa using same

end Quoted

end Token

end SelectRouting
