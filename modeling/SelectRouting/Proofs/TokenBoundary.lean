import SelectRouting.Proofs.Lexing
import SelectRouting.Proofs.LiteralBoundary

/-!
# Where a token ends

How far a token reaches is decided by the first characters behind it. The same token is read before
any other text that begins alike, or with a character that continues no token of its kind
(`Token.read_before`).
-/

namespace SelectRouting

namespace Trivia

section Steps
variable {state next : Trivia} {c : Char} {cs gap : List Char} {n : Nat}

/-- The state behind a character of trivia, decided by the character and the one that follows it. -/
def after? : Trivia → Char → Option Char → Option Trivia
  | .between, c, second =>
    if Text.isBlank c then some .between
    else if c == '-' && second == some '-' then some .lineComment
    else if c == '/' && second == some '*' then some (.blockComment false)
    else none
  | .lineComment, c, _ => some (if c == '\n' then .between else .lineComment)
  | .blockComment afterStar, c, _ =>
    some (if afterStar && c == '/' then .between else .blockComment (c == '*'))

theorem length_cons : state.length (c :: cs) =
    match state.after? c cs.head? with
    | some next => next.length cs + 1
    | none => 0 := by
  cases state with
  | between =>
    rw [length, after?]
    by_cases blank : Text.isBlank c = true
    · rw [if_pos blank, if_pos blank]
    rw [if_neg blank, if_neg blank]
    by_cases line : (c == '-' && cs.head? == some '-') = true
    · rw [if_pos line, if_pos line]
    rw [if_neg line, if_neg line]
    by_cases block : (c == '/' && cs.head? == some '*') = true
    · rw [if_pos block, if_pos block]
    · rw [if_neg block, if_neg block]
  | lineComment =>
    rw [length, after?]
    by_cases ends : (c == '\n') = true
    · rw [if_pos ends, if_pos ends]
    · rw [if_neg ends, if_neg ends]
  | blockComment afterStar =>
    rw [length, after?]
    by_cases ends : (afterStar && c == '/') = true
    · rw [if_pos ends, if_pos ends]
    · rw [if_neg ends, if_neg ends]

/-- Trivia that reach over a character go on in the state behind it. -/
theorem length_cons_eq_succ : state.length (c :: cs) = n + 1 ↔
    ∃ next, state.after? c cs.head? = some next ∧ next.length cs = n := by
  rw [length_cons]
  cases state.after? c cs.head? with
  | none => simp
  | some next => simp

/-- What follows a character matters only where it opens a comment. -/
theorem after?_of_closed {first : Option Char} (passes : state.after? c first = some next)
    (closed : first = none ∨ next = between) (second : Option Char) :
    state.after? c second = some next := by
  cases state with
  | between =>
    rw [after?] at passes ⊢
    by_cases blank : Text.isBlank c = true
    · rw [if_pos blank] at passes ⊢
      exact passes
    rw [if_neg blank] at passes
    rcases closed with rfl | rfl
    · simp at passes
    · split at passes
      · cases passes
      split at passes
      · cases passes
      · cases passes
  | lineComment => exact passes
  | blockComment => exact passes

/-- A character of trivia is one of trivia also with more text behind them. -/
theorem after?_append (passes : state.after? c gap.head? = some next) (rest : List Char) :
    state.after? c (gap ++ rest).head? = some next := by
  cases gap with
  | nil => exact after?_of_closed passes (.inl rfl) _
  | cons _ _ => exact passes

end Steps

theorem length_le (state : Trivia) (cs : List Char) : state.length cs ≤ cs.length := by
  induction cs generalizing state with
  | nil => cases state <;> exact Nat.le_refl _
  | cons c cs ih =>
    cases size : state.length (c :: cs) with
    | zero => exact Nat.zero_le _
    | succ n =>
      obtain ⟨next, _, rfl⟩ := length_cons_eq_succ.mp size
      exact Nat.succ_le_succ (ih next)

/-- A comment goes on where its end does not stand. -/
theorem ne_nil_of_comment {state : Trivia} {gap rest : List Char} (some : rest ≠ [])
    (inside : state ≠ between) (covers : state.length (gap ++ rest) = gap.length) : gap ≠ [] := by
  rintro rfl
  obtain ⟨c, cs, rfl⟩ := List.exists_cons_of_ne_nil some
  cases state with
  | between => exact inside rfl
  | lineComment => simp [length] at covers
  | blockComment => simp [length] at covers

/-- Trivia end before text only where no trivia follow. -/
theorem length_behind {state : Trivia} {gap rest : List Char} (some : rest ≠ [])
    (covers : state.length (gap ++ rest) = gap.length) : between.length rest = 0 := by
  induction gap generalizing state with
  | nil =>
    by_cases inside : state = between
    · subst inside
      exact covers
    · exact absurd rfl (ne_nil_of_comment some inside covers)
  | cons c gap ih =>
    obtain ⟨next, _, inner⟩ := length_cons_eq_succ.mp covers
    exact ih inner

/-- Trivia that ended before text go on before any other text with the trivia it begins with. -/
theorem length_append {state : Trivia} {gap rest : List Char} (some : rest ≠ [])
    (covers : state.length (gap ++ rest) = gap.length) (rest' : List Char) :
    state.length (gap ++ rest') = gap.length + between.length rest' := by
  induction gap generalizing state with
  | nil =>
    by_cases inside : state = between
    · subst inside
      exact (Nat.zero_add _).symm
    · exact absurd rfl (ne_nil_of_comment some inside covers)
  | cons c gap ih =>
    obtain ⟨next, passes, inner⟩ := length_cons_eq_succ.mp covers
    have kept : state.after? c (gap ++ rest').head? = .some next := by
      by_cases inside : next = between
      · exact after?_of_closed passes (.inr inside) _
      · obtain ⟨g, gs, rfl⟩ := List.exists_cons_of_ne_nil (ne_nil_of_comment some inside inner)
        exact passes
    rw [List.length_cons, Nat.add_right_comm]
    exact length_cons_eq_succ.mpr ⟨next, kept, ih inner⟩

/-- Trivia before text reach as far before any other text that begins with none. -/
theorem length_before {state : Trivia} {gap rest rest' : List Char} (some : rest ≠ [])
    (covers : state.length (gap ++ rest) = gap.length) (stops : between.length rest' = 0) :
    state.length (gap ++ rest') = gap.length := by
  rw [length_append some covers, stops, Nat.add_zero]

/-- More text behind trivia does not cut them short. -/
theorem le_length_append {state : Trivia} {gap : List Char} (all : state.length gap = gap.length)
    (rest : List Char) : gap.length ≤ state.length (gap ++ rest) := by
  induction gap generalizing state with
  | nil => exact Nat.zero_le _
  | cons c gap ih =>
    obtain ⟨next, passes, inner⟩ := length_cons_eq_succ.mp all
    have whole := length_cons_eq_succ.mpr ⟨next, after?_append passes rest, rfl⟩
    rw [List.cons_append, whole]
    exact Nat.succ_le_succ (ih inner)

end Trivia

namespace Token

section Read
variable {c : Char} {tail rest rest' : List Char} {kind : TokenKind}

/-- Where a token of any kind ends before `rest`, it ends before `rest'`. -/
structure Boundary (rest rest' : List Char) : Prop extends NumberBoundary rest rest' where
  word : (∀ d ∈ rest.head?, isWordCharacter d = false) → ∀ d ∈ rest'.head?, isWordCharacter d = false
  quote : ∀ q, Text.isQuote q = true → rest.head? ≠ some q → rest'.head? ≠ some q

/-- A symbol that ends before `rest` ends before `rest'`. -/
def SymbolBoundary (rest rest' : List Char) : Prop :=
  ∀ c, rest.head?.bind (Symbol.double? c) = none → rest'.head?.bind (Symbol.double? c) = none

/-- Where the token of the characters `c` and `tail` ends before `rest`, it ends before `rest'`, if it
is no symbol. Which boundary matters is told by the first character. -/
structure Ends (c : Char) (tail rest rest' : List Char) : Prop where
  number : c.isDigit = true → NumberBoundary rest rest'
  word : (Text.isAlphabetic c || c == '_') = true → tail.head? ≠ some '\x27' →
    (∀ d ∈ rest.head?, isWordCharacter d = false) → ∀ d ∈ rest'.head?, isWordCharacter d = false
  quote : Text.isQuote c = true → c ≠ '[' → rest.head? ≠ some c → rest'.head? ≠ some c
  blob : (c == 'X' || c == 'x') = true → tail = [] → rest.head? ≠ some '\x27' →
    rest'.head? ≠ some '\x27'

theorem Boundary.ends (boundary : Boundary rest rest') : Ends c tail rest rest' where
  number _ := boundary.toNumberBoundary
  word _ _ := boundary.word
  quote is _ := boundary.quote c is
  blob _ _ := boundary.quote _ rfl

theorem readWord_before (reads : readWord c (tail ++ rest) = (kind, tail.length))
    (letter : (Text.isAlphabetic c || c == '_') = true) (ends : Ends c tail rest rest') :
    readWord c (tail ++ rest') = (kind, tail.length) := by
  unfold readWord at reads ⊢
  dsimp only at reads ⊢
  obtain ⟨all, stops⟩ := takeWhile_length_eq (Prod.mk.inj reads).2
  have noQuote : tail.head? ≠ some '\x27' := fun quote => by
    cases all _ (List.mem_of_mem_head? quote)
  rw [(takeWhile_append_stop all stops).1] at reads
  rw [(takeWhile_append_stop all (ends.word letter noQuote stops)).1, reads]

/-- A blob is told from a word by the quote behind its letter. -/
theorem blobQuote_before (letter : (c == 'X' || c == 'x') = true) (ends : Ends c tail rest rest')
    (noBlob : (tail ++ rest).head? ≠ some '\x27') : (tail ++ rest').head? ≠ some '\x27' := by
  cases tail with
  | nil => exact ends.blob letter rfl noBlob
  | cons d tail => exact noBlob

/-- A token that ends before `rest` is read the same before `rest'`. Only a token that is not valid may
have ended because the text ended. -/
theorem read_before (reads : read c (tail ++ rest) = (kind, tail.length))
    (valid : rest = [] → ∀ error, kind ≠ .invalid error)
    (symbol : rest.head?.bind (Symbol.double? c) = none → rest'.head?.bind (Symbol.double? c) = none)
    (ends : kind.isSymbol = false → Ends c tail rest rest') :
    read c (tail ++ rest') = (kind, tail.length) := by
  unfold read at reads ⊢
  split at reads
  · next mark found =>
    obtain ⟨rfl, length⟩ := Prod.mk.inj reads
    obtain ⟨d, rfl⟩ := List.length_eq_one_iff.mp length.symm
    have same : ([d] ++ rest').head?.bind (Symbol.double? c) = some mark := found
    rw [same]
    rfl
  next noDouble =>
  have noDouble' : (tail ++ rest').head?.bind (Symbol.double? c) = none := by
    cases tail with
    | nil => exact symbol noDouble
    | cons d tail => exact noDouble
  rw [noDouble']
  dsimp only
  have named {reader : TokenKind × Nat} (is : reader.1.isWritten = true)
      (reads : reader = (kind, tail.length)) : Ends c tail rest rest' :=
    ends (TokenKind.isWritten_iff.mp (by rwa [reads] at is)).1
  split at reads
  · next quote =>
    have ends := named (isWritten_readText _ fun _ => rfl) reads
    rw [if_pos quote]
    rw [beq_iff_eq] at quote
    subst quote
    exact readText_before reads valid fun _ => ends.quote rfl (by decide)
  next noString =>
  rw [if_neg noString]
  split at reads
  · next quote =>
    have ends := named (isWritten_readText _ fun _ => rfl) reads
    rw [if_pos quote]
    rw [Bool.or_eq_true, beq_iff_eq, beq_iff_eq] at quote
    refine readText_before reads valid fun _ => ?_
    rcases quote with rfl | rfl
    · exact ends.quote rfl (by decide)
    · exact ends.quote rfl (by decide)
  next noName =>
  rw [if_neg noName]
  split at reads
  · next bracket =>
    rw [if_pos bracket]
    exact readText_before reads valid (by simp)
  next noBracket =>
  rw [if_neg noBracket]
  split at reads
  · next blob =>
    cases tail with
    | nil => cases (Prod.mk.inj reads).2
    | cons quote tail =>
      simp only [List.cons_append, List.drop_succ_cons, List.drop_zero, List.length_cons] at reads blob ⊢
      obtain ⟨is, length⟩ := Prod.mk.inj reads
      have inner : readBlob (tail ++ rest) = (kind, tail.length) :=
        Prod.ext is (Nat.succ.inj length)
      rw [List.head?_cons] at blob ⊢
      rw [if_pos blob, readBlob_before inner valid]
  next noBlob =>
  have noBlob' (ends : Ends c tail rest rest') :
      ¬ ((c == 'X' || c == 'x') && (tail ++ rest').head? == some '\x27') = true := by
    intro blob
    rw [Bool.and_eq_true, beq_iff_eq] at blob noBlob
    exact blobQuote_before blob.1 ends (fun quote => noBlob ⟨blob.1, quote⟩) blob.2
  split at reads
  · next digit =>
    have ends := named (isWritten_readNumber _ _) reads
    rw [if_neg (noBlob' ends), if_pos digit]
    exact readNumber_before reads (ends.number digit)
  next noDigit =>
  split at reads
  · next letter =>
    have ends := named (isWritten_readWord _ _) reads
    rw [if_neg (noBlob' ends), if_neg noDigit, if_pos letter]
    exact readWord_before reads letter ends
  next noLetter =>
  have noX : ¬ ((c == 'X' || c == 'x') && (tail ++ rest').head? == some '\x27') = true := by
    intro blob
    simp only [Bool.and_eq_true, Bool.or_eq_true, beq_iff_eq] at blob
    rcases blob.1 with rfl | rfl <;> exact noLetter (by decide)
  rw [if_neg noX, if_neg noDigit, if_neg noLetter]
  exact reads

end Read

/-- The character is no digit and no sign, and makes no symbol and no comment together with the
character before it. -/
def isInert (d : Char) : Bool :=
  !d.isDigit && !(['+', '-', '*', '=', '<', '>', '|', ':'].contains d)

/-- The character goes on with no word and no quoted text. -/
def isDelimiter (d : Char) : Bool :=
  !isWordCharacter d && !Text.isQuote d

section Boundaries
variable {rest rest' : List Char}

/-- The character makes no symbol together with the one before it. -/
theorem double?_eq_none {d : Char} (other : ['=', '<', '>', '|', ':'].contains d = false) (c : Char) :
    Symbol.double? c d = none := by
  unfold Symbol.double?
  split <;> first | rfl | cases other

theorem SymbolBoundary.of_other
    (other : ∀ d ∈ rest'.head?, ['=', '<', '>', '|', ':'].contains d = false) :
    SymbolBoundary rest rest' := by
  intro c _
  cases rest' with
  | nil => rfl
  | cons d rest' => exact double?_eq_none (other d rfl) c

theorem SymbolBoundary.of_inert (inert : ∀ d ∈ rest'.head?, isInert d = true) :
    SymbolBoundary rest rest' := by
  refine .of_other fun d first => Bool.eq_false_iff.mpr fun second => ?_
  have none := inert d first
  simp only [List.contains_eq_mem, decide_eq_true_eq, List.mem_cons, List.not_mem_nil, or_false]
    at second
  rcases second with rfl | rfl | rfl | rfl | rfl <;> cases none

theorem SymbolBoundary.of_head (same : rest'.head? = rest.head?) : SymbolBoundary rest rest' := by
  intro c none
  rwa [same]

theorem isWordCharacter_of_isDigit {d : Char} (digit : d.isDigit = true) :
    isWordCharacter d = true := by
  have ascii : Text.isAscii d = true := by
    have range := digit
    simp only [Char.isDigit, ge_iff_le, UInt32.le_iff_toNat_le, Bool.and_eq_true,
      decide_eq_true_eq] at range
    have top : d.toNat ≤ 57 := range.2
    simp only [Text.isAscii, decide_eq_true_eq]
    omega
  simp [isWordCharacter, Text.isNumeric, ascii, digit]

theorem exponentPart?_of_head {rest : List Char}
    (other : ∀ d ∈ rest.head?, (d == 'e' || d == 'E') = false) : exponentPart? rest = none := by
  unfold exponentPart?
  split
  · next e _ _ => simp [other e rfl]
  · rfl

theorem Boundary.of_delimiter (delimits : ∀ d ∈ rest'.head?, isDelimiter d = true ∧ d ≠ '.') :
    Boundary rest rest' := by
  cases rest' with
  | nil => exact ⟨⟨by simp, by simp [fractionDigits], by simp [exponentPart?]⟩, by simp, by simp⟩
  | cons d rest' =>
    obtain ⟨ends, noPoint⟩ := delimits d rfl
    simp only [isDelimiter, Bool.and_eq_true, Bool.not_eq_true'] at ends
    obtain ⟨noWord, noQuote⟩ := ends
    have noDigit : d.isDigit = false := by
      refine Bool.eq_false_iff.mpr fun digit => ?_
      rw [isWordCharacter_of_isDigit digit] at noWord
      cases noWord
    have noExponent : (d == 'e' || d == 'E') = false := by
      refine Bool.eq_false_iff.mpr fun letter => ?_
      rw [Bool.or_eq_true, beq_iff_eq, beq_iff_eq] at letter
      rcases letter with rfl | rfl <;> cases noWord
    refine ⟨⟨fun _ => by simpa using noDigit, fun _ => ?_, fun _ => ?_⟩, fun _ => by simpa using noWord,
      fun q quote _ same => ?_⟩
    · simp [fractionDigits, noPoint]
    · exact exponentPart?_of_head (by simpa using noExponent)
    · obtain rfl := Option.some.inj same
      rw [quote] at noQuote
      cases noQuote

theorem not_isDigit_of_isInert {d : Char} (inert : isInert d = true) : d.isDigit = false := by
  simp only [isInert, Bool.and_eq_true, Bool.not_eq_true'] at inert
  exact inert.1

theorem not_isSign_of_isInert {d : Char} (inert : isInert d = true) : (d == '+' || d == '-') = false := by
  refine Bool.eq_false_iff.mpr fun sign => ?_
  rw [Bool.or_eq_true, beq_iff_eq, beq_iff_eq] at sign
  rcases sign with rfl | rfl <;> cases inert

theorem NumberBoundary.of_head {c : Char} {cs ds : List Char}
    (second : ds.head? = cs.head? ∨ ∀ d ∈ ds.head?, d.isDigit = false ∧
      ((c == 'e' || c == 'E') = true → (d == '+' || d == '-') = false)) :
    NumberBoundary (c :: cs) (c :: ds) := by
  refine ⟨fun stops => by simpa using stops, fun none => ?_, fun none => ?_⟩
  · by_cases point : c = '.'
    · subst point
      simp only [fractionDigits] at none ⊢
      cases ds with
      | nil => rfl
      | cons d ds =>
        have noDigit : d.isDigit = false := by
          rcases second with same | other
          · cases cs with
            | nil => cases same
            | cons c cs =>
              obtain rfl := Option.some.inj same
              refine Bool.eq_false_iff.mpr fun digit => ?_
              simp [digit] at none
          · exact (other d rfl).1
        simp [noDigit]
    · simp [fractionDigits, point]
  · cases ds with
    | nil => simp [exponentPart?]
    | cons d ds =>
      simp only [exponentPart?]
      split
      · next letter =>
        rcases second with same | other
        · cases cs with
          | nil => cases same
          | cons c cs =>
            obtain rfl := Option.some.inj same
            simp only [exponentPart?, if_pos letter] at none
            split at none
            · cases none
            next noDigit =>
            split at none
            · cases none
            next noSign => rw [if_neg noDigit, if_neg noSign]
        · obtain ⟨noDigit, noSign⟩ := other d rfl
          rw [if_neg (by simp [noDigit]), if_neg (by simp [noSign letter])]
      · rfl

theorem Boundary.of_head {c : Char} {cs ds : List Char}
    (second : ds.head? = cs.head? ∨ ∀ d ∈ ds.head?, d.isDigit = false ∧
      ((c == 'e' || c == 'E') = true → (d == '+' || d == '-') = false)) :
    Boundary (c :: cs) (c :: ds) :=
  ⟨.of_head second, fun stops => by simpa using stops, fun _ _ other => by simpa using other⟩

theorem isDelimiter_of_isBlank {c : Char} (blank : Text.isBlank c = true) :
    isDelimiter c = true ∧ c ≠ '.' := by
  have among : c.toNat ∈ [32, 9, 10, 11, 12, 13, 0x85, 0xA0, 0x1680, 0x2000, 0x2001, 0x2002, 0x2003,
      0x2004, 0x2005, 0x2006, 0x2007, 0x2008, 0x2009, 0x200A, 0x2028, 0x2029, 0x202F, 0x205F,
      0x3000] := by
    unfold Text.isBlank at blank
    split at blank
    · rw [Bool.or_eq_true, beq_iff_eq] at blank
      rcases blank with rfl | range
      · decide
      · simp only [Bool.and_eq_true, decide_eq_true_eq] at range
        simp only [List.mem_cons, List.not_mem_nil, or_false]
        omega
    · simp only [Text.inRanges, Text.blankRanges, List.any_cons, List.any_nil, Bool.or_false,
        Bool.or_eq_true, Bool.and_eq_true, decide_eq_true_eq] at blank
      simp only [List.mem_cons, List.not_mem_nil, or_false]
      omega
  have all : ∀ n ∈ [32, 9, 10, 11, 12, 13, 0x85, 0xA0, 0x1680, 0x2000, 0x2001, 0x2002, 0x2003,
      0x2004, 0x2005, 0x2006, 0x2007, 0x2008, 0x2009, 0x200A, 0x2028, 0x2029, 0x202F, 0x205F,
      0x3000], isDelimiter (Char.ofNat n) = true ∧ Char.ofNat n ≠ '.' := by
    decide +kernel
  have at_c := all c.toNat among
  rwa [Char.ofNat_toNat] at at_c

/-- Trivia begin with a blank, a hyphen or a slash. -/
theorem isDelimiter_of_trivia {c : Char} {cs : List Char}
    (trivia : Trivia.between.length (c :: cs) ≠ 0) : isDelimiter c = true ∧ c ≠ '.' := by
  unfold Trivia.length at trivia
  split at trivia
  · next blank => exact isDelimiter_of_isBlank blank
  split at trivia
  · next line =>
    obtain ⟨rfl, _⟩ := by simpa using line
    decide
  split at trivia
  · next block =>
    obtain ⟨rfl, _⟩ := by simpa using block
    decide
  · exact absurd rfl trivia

end Boundaries

end Token

end SelectRouting
