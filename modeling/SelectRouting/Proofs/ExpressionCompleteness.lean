import SelectRouting.Proofs.NestedExpressions

/-!
# Every expression is read

The tokens that write a tree are read as an expression of its shape
(`ExprStep.expression_of_written`). With a reader of nested expressions that reads what has less than
`size` tokens (`ExprStep.Completes`) those are read that have one token more, so the depth of nesting
is one induction. The other one, within a level, is on the operands on the left: they are passed as
far as the operator behind them (`ExprStep.Climbs`), which then decides where they end.
-/

namespace SelectRouting

namespace ExprStep
open Scan Step Cursor ExprState ExprTree

variable {before after : ExprState} {token : Token} {tokens : List Token} {tree : ExprTree}

/-- The cursor stands at the word that introduces an escape character. -/
theorem atWord?_escape {cursor : Cursor} :
    cursor.atWord? "ESCAPE" = true ↔ Expr.Escapes cursor.rest := by
  constructor
  · intro stands
    obtain ⟨token, rest, tokens, _, spelled⟩ := exists_word stands (by decide)
    exact ⟨token, by simp [tokens], spelled⟩
  · rintro ⟨token, first, spelled⟩
    obtain ⟨others, tokens⟩ := List.head?_eq_some_iff.mp first
    rwa [Cursor.atWord?, Cursor.lexeme, current_of_cons tokens]

section Operations
variable {nested : Nat → ExprStep Expr} {size : Nat}

/-- A place between an expression and the operators behind it: an operand has been read, and the
operators up to the place. -/
def Climbs (nested : Nat → ExprStep Expr) (place : Nat) (before : ExprState) (expr : Expr)
    (after : ExprState) : Prop :=
  ∃ first between, Yields (operand nested) before first between ∧
    Reaches (expressionRound nested place before.cursor.start) first between expr after

theorem Climbs.of_operand {place : Nat} {expr : Expr}
    (answers : Yields (operand nested) before expr after) : Climbs nested place before expr after :=
  ⟨expr, after, answers, .refl⟩

theorem Climbs.round {place : Nat} {left right : Expr} {between : ExprState}
    (climbs : Climbs nested place before left between)
    (round : Yields (expressionRound nested place before.cursor.start left) between (.next right)
      after) : Climbs nested place before right after := by
  obtain ⟨first, state, answers, reaches⟩ := climbs
  exact ⟨first, state, answers, reaches.trans (.next round .refl)⟩

/-- The operands on the left that are written with less than `bound` tokens are read up to the
operator behind them. -/
def ClimbsBelow (bound : Nat) (nested : Nat → ExprStep Expr) (place : Nat) (before : ExprState) :
    Prop :=
  ∀ {tree : ExprTree} {tokens : List Token} {after : ExprState}, Written tree tokens →
    tokens.length < bound → place ≤ tree.power → Crosses before tokens tree.owners after →
      Expr.Follows tree.power after.cursor.rest →
        Climbs nested place before (tree.shape tokens) after

/-- An operator that binds tightly enough is taken with what belongs to it. -/
theorem expressionRound_goesOn {place start power : Nat} {left : Expr}
    (binds : Expr.binaryPower? before.cursor.kind = some power) (within : place ≤ power)
    (bound : atLoneNot before.cursor = false)
    (ran : Yields (operation nested (power + 1)) before () after) :
    Yields (expressionRound nested place start left) before
      (.next (.other ⟨start, after.cursor.previous.stop⟩)) after := by
  have goesOn : ¬ ((decide (power < place) || atLoneNot before.cursor) = true) := by
    simpa [bound] using within
  unfold expressionRound
  rw [Step.yields_look_bind]
  simp only [id_eq, cursor_expr, Expr.castPower?_of_binary binds, binds]
  rw [if_neg goesOn]
  exact yields_bind.mpr ⟨(), after, ran,
    yields_bind.mpr ⟨_, after, yields_spanningFrom.mpr ⟨rfl, rfl⟩, yields_pure.mpr ⟨rfl, rfl⟩⟩⟩

/-- A cast that binds tightly enough is taken. -/
theorem expressionRound_casts {place start power : Nat} {left : Expr}
    (casts : Expr.castPower? before.cursor.kind = some power) (within : place ≤ power)
    (ran : Yields cast before () after) :
    Yields (expressionRound nested place start left) before
      (.next (.other ⟨start, after.cursor.previous.stop⟩)) after := by
  unfold expressionRound
  rw [Step.yields_look_bind]
  simp only [id_eq, cursor_expr, casts]
  rw [if_neg (Nat.not_lt.mpr within)]
  exact yields_bind.mpr ⟨(), after, ran,
    yields_bind.mpr ⟨_, after, yields_spanningFrom.mpr ⟨rfl, rfl⟩, yields_pure.mpr ⟨rfl, rfl⟩⟩⟩

/-- An expression ends where no operator binds tightly enough. -/
theorem expressionRound_ends {place start : Nat} {left : Expr}
    (stops : ¬ Expr.Holds place before.cursor.kind) :
    Yields (expressionRound nested place start left) before (.done left) before := by
  unfold expressionRound
  rw [Step.yields_look_bind]
  simp only [id_eq, cursor_expr]
  split
  · next power casts =>
    have loose : power < place := by
      by_contra tight
      exact stops (.inl ⟨power, casts, Nat.not_lt.mp tight⟩)
    rw [if_pos loose]
    exact yields_pure.mpr ⟨rfl, rfl⟩
  · next power noCast binds =>
    have loose : power < place := by
      by_contra tight
      exact stops (.inr ⟨power, binds, Nat.not_lt.mp tight⟩)
    rw [if_pos (by simp [loose])]
    exact yields_pure.mpr ⟨rfl, rfl⟩
  · exact yields_pure.mpr ⟨rfl, rfl⟩

/-- The `NOT` before a test is passed where it stands. -/
theorem negation_answers {words : List Token} {negated : Bool}
    (are : words.map Token.kind = Expr.negation negated) (crosses : Crosses before words [] after)
    (elsewhere : after.cursor.kind ≠ .keyword .NOT) :
    ∃ found, Yields (liftM (skipKeyword .NOT) : ExprStep Bool) before found after := by
  cases negated with
  | false =>
    obtain rfl : words = [] := by simpa [Expr.negation] using are
    obtain rfl := crosses.eq_before
    exact ⟨false, skipKeyword_declines elsewhere⟩
  | true =>
    obtain ⟨word, rfl, is⟩ : ∃ word, words = [word] ∧ word.kind = .keyword .NOT := by
      simpa [Expr.negation, List.map_eq_singleton_iff] using are
    exact ⟨true, skipKeyword_answers crosses is⟩

/-- A test that may be negated binds as a comparison. -/
theorem binds_of_negation {words two owners : List Token} {negated : Bool} {verb : Token}
    {word : Keyword} (are : words.map Token.kind = Expr.negation negated)
    (isVerb : verb.kind = .keyword word) (known : word ∈ [.IN, .BETWEEN, .LIKE])
    (crosses : Crosses before (words ++ verb :: two) owners after) :
    Expr.binaryPower? before.cursor.kind = some Expr.comparisonPower ∧
      atLoneNot before.cursor = false := by
  cases negated with
  | false =>
    obtain rfl : words = [] := by simpa [Expr.negation] using are
    have stands : before.cursor.kind = .keyword word := crosses.kind.trans isVerb
    simp only [List.mem_cons, List.not_mem_nil, or_false] at known
    rcases known with rfl | rfl | rfl <;>
    simp [stands, Expr.binaryPower?, atLoneNot, Cursor.atKeyword?]
  | true =>
    obtain ⟨first, rfl, is⟩ : ∃ word, words = [word] ∧ word.kind = .keyword .NOT := by
      simpa [Expr.negation, List.map_eq_singleton_iff] using are
    have stands : before.cursor.kind = .keyword .NOT := crosses.kind.trans is
    have next : (before.cursor.peek 1).kind = .keyword word := by
      rw [kind_peek_one, crosses.passes.rest]
      exact isVerb
    simp only [List.mem_cons, List.not_mem_nil, or_false] at known
    rcases known with rfl | rfl | rfl <;>
    simp [stands, next, Expr.binaryPower?, atLoneNot]

section Tests
variable {words : List Token} {negated : Bool} {verb : Token}

/-- A test for `NULL`, `TRUE` or `FALSE` is passed. -/
theorem nullTest_answers {power : Nat} {value : Keyword} {last : Token}
    (isVerb : verb.kind = .keyword .IS) (are : words.map Token.kind = Expr.negation negated)
    (known : value ∈ [.NULL, .TRUE, .FALSE]) (isLast : last.kind = .keyword value)
    (crosses : Crosses before (verb :: (words ++ [last])) [] after) :
    Yields (operation nested power) before () after := by
  have atVerb := crosses.kind.trans isVerb
  obtain ⟨between, verb, crosses⟩ := crosses.uncons
  obtain ⟨behind, crossesWords, last⟩ := crosses.unsnoc
  have noNot : behind.cursor.kind ≠ .keyword .NOT := by
    rw [last.kind, isLast]
    rintro ⟨⟩
    simp at known
  obtain ⟨found, skipped⟩ := negation_answers are crossesWords noNot
  unfold operation
  refine yields_bind.mpr ⟨false, before, skipKeyword_declines (by simp [atVerb]), ?_⟩
  rw [Step.yields_look_bind]
  simp only [cursor_expr, atVerb]
  refine yields_bind.mpr ⟨(), between, advance_answers verb (by simp [isVerb]), ?_⟩
  refine yields_bind.mpr ⟨found, behind, skipped, ?_⟩
  exact yields_bind.mpr ⟨true, after, skipAnyKeyword_answers last isLast known,
    yields_pure.mpr ⟨rfl, rfl⟩⟩

variable (complete : Completes size nested)
include complete

/-- An operator between two operands is passed up to the end of the right one. -/
theorem infix_answers {power : Nat} {right : ExprTree} {two : List Token}
    (binds : (token.kind, power) ∈ Expr.infixOperators) (written : WrittenAt (power + 1) right two)
    (short : two.length < size) (crosses : Crosses before (token :: two) right.owners after)
    (ends : Expr.Ends (power + 1) after.cursor.rest) :
    Yields (operation nested (power + 1)) before () after := by
  have stands : before.cursor.kind = token.kind := crosses.kind
  obtain ⟨between, operator, crosses⟩ := crosses.uncons
  obtain ⟨_, answers⟩ := complete written short crosses ends
  have noTest := Expr.not_mem_testWords binds
  rw [← stands] at noTest
  simp only [Expr.testWords, List.mem_cons, List.not_mem_nil, or_false, not_or] at noTest
  obtain ⟨noIs, noIn, noBetween, noLike, noNot⟩ := noTest
  have uncounted : token.kind ≠ .symbol .question := by
    intro is
    simp [is, Expr.infixOperators] at binds
  unfold operation
  refine yields_bind.mpr ⟨false, before, skipKeyword_declines noNot, ?_⟩
  rw [Step.yields_look_bind]
  -- the operator is none of the words of tests, so only the last case is left
  simp only [cursor_expr]
  refine yields_bind.mpr ⟨(), between, advance_answers operator uncounted, ?_⟩
  exact yields_bind.mpr ⟨_, after, answers, yields_pure.mpr ⟨rfl, rfl⟩⟩

/-- A `BETWEEN` is passed up to the end of the upper bound. -/
theorem between_answers {power : Nat} {lower upper : ExprTree} {two three : List Token}
    {joint : Token} (are : words.map Token.kind = Expr.negation negated)
    (isVerb : verb.kind = .keyword .BETWEEN) (first : WrittenAt power lower two)
    (isAnd : joint.kind = .keyword .AND) (second : WrittenAt power upper three)
    (short : (two ++ joint :: three).length < size) (tight : 3 < power)
    (crosses : Crosses before (words ++ verb :: (two ++ joint :: three))
      (lower.owners ++ upper.owners) after) (ends : Expr.Ends power after.cursor.rest) :
    Yields (operation nested power) before () after := by
  simp only [List.length_append, List.length_cons] at short
  obtain ⟨between, crossesWords, crosses⟩ := @Crosses.split _ _ _ _ [] _ crosses
  have atVerb := crosses.kind.trans isVerb
  obtain ⟨found, skipped⟩ := negation_answers are crossesWords (by simp [atVerb])
  obtain ⟨behind, verb, crosses⟩ := crosses.uncons
  obtain ⟨atAnd, crossesLower, crosses⟩ := crosses.split
  have stands := crosses.kind.trans isAnd
  obtain ⟨behindAnd, joint, crossesUpper⟩ := crosses.uncons
  have lowerEnds : Expr.Ends power atAnd.cursor.rest := by
    rw [kind_eq_frontKind] at stands
    refine Expr.ends_of_fixed joint.lexed (by simp [stands, Expr.isFixed, TokenKind.keyword?])
      (by simp [stands]) (by simp [stands]) ?_
    rw [stands]
    rintro (⟨_, casts, _⟩ | ⟨_, ⟨⟩, enough⟩)
    · cases casts
    · omega
  obtain ⟨_, low⟩ := complete first (by omega) crossesLower lowerEnds
  obtain ⟨_, up⟩ := complete second (by omega) crossesUpper ends
  unfold operation
  refine yields_bind.mpr ⟨found, between, skipped, ?_⟩
  rw [Step.yields_look_bind]
  simp only [cursor_expr, atVerb]
  refine yields_bind.mpr ⟨(), behind, advance_answers verb (by simp [isVerb]), ?_⟩
  refine yields_bind.mpr ⟨_, atAnd, low, ?_⟩
  refine yields_bind.mpr ⟨(), behindAnd, expectKeyword_answers joint isAnd, ?_⟩
  exact yields_bind.mpr ⟨_, after, up, yields_pure.mpr ⟨rfl, rfl⟩⟩

/-- A `LIKE` is passed up to the end of the pattern or of its escape character. -/
theorem like_answers {power : Nat} {pattern : ExprTree} {escape : Option ExprTree}
    {two three : List Token} (are : words.map Token.kind = Expr.negation negated)
    (isVerb : verb.kind = .keyword .LIKE) (first : WrittenAt power pattern two)
    (last : Announced IsEscape (WrittenAt power) escape three)
    (short : (two ++ three).length < size) (tight : Expr.comparisonPower < power)
    (crosses : Crosses before (words ++ verb :: (two ++ three))
      (pattern.owners ++ ownersOfPart escape) after) (ends : Expr.Ends power after.cursor.rest)
    (noEscape : ¬ Expr.Escapes after.cursor.rest) :
    Yields (operation nested power) before () after := by
  simp only [List.length_append] at short
  obtain ⟨between, crossesWords, crosses⟩ := @Crosses.split _ _ _ _ [] _ crosses
  have atVerb := crosses.kind.trans isVerb
  obtain ⟨found, skipped⟩ := negation_answers are crossesWords (by simp [atVerb])
  obtain ⟨behind, verb, crosses⟩ := crosses.uncons
  obtain ⟨middle, crossesPattern, crosses⟩ := crosses.split
  unfold operation
  refine yields_bind.mpr ⟨found, between, skipped, ?_⟩
  rw [Step.yields_look_bind]
  simp only [cursor_expr, atVerb]
  refine yields_bind.mpr ⟨(), behind, advance_answers verb (by simp [isVerb]), ?_⟩
  cases last with
  | absent =>
    obtain rfl := crosses.eq_before
    obtain ⟨_, answers⟩ := complete first (by omega) crossesPattern ends
    refine yields_bind.mpr ⟨_, after, answers, ?_⟩
    rw [Step.yields_look_bind, cursor_expr, if_neg (mt atWord?_escape.mp noEscape)]
    exact yields_pure.mpr ⟨rfl, rfl⟩
  | @present tree lead written lead_ second =>
    obtain ⟨word, rfl, spelled⟩ := lead_
    have escapes : Expr.Escapes middle.cursor.rest :=
      ⟨word, by simp [crosses.passes.rest], spelled⟩
    obtain ⟨_, answers⟩ := complete first (by omega) crossesPattern
      (Expr.ends_of_escape crosses.lexed escapes tight)
    obtain ⟨atEscape, word_, crosses⟩ := crosses.uncons
    obtain ⟨_, escaped⟩ := complete second (by simp at short; omega) crosses ends
    have uncounted := uncounted_of_isWritten
      ((word_.lexed_tokens word (by simp)).isWritten_of_word spelled (by decide))
    refine yields_bind.mpr ⟨_, middle, answers, ?_⟩
    rw [Step.yields_look_bind, cursor_expr, if_pos (atWord?_escape.mpr escapes)]
    refine yields_bind.mpr ⟨(), atEscape, advance_answers word_ uncounted, ?_⟩
    exact yields_bind.mpr ⟨_, after, escaped, yields_pure.mpr ⟨rfl, rfl⟩⟩

variable (sound : ReadsPhrases nested)
include sound

/-- An `IN` is passed with its list. -/
theorem among_answers {power : Nat} {items : List ExprTree} {two : List Token}
    (are : words.map Token.kind = Expr.negation negated) (isVerb : verb.kind = .keyword .IN)
    (grouped : Grouped Written items two) (short : two.length ≤ size)
    (crosses : Crosses before (words ++ verb :: two) (ownersOfItems items) after) :
    Yields (operation nested power) before () after := by
  obtain ⟨between, crossesWords, crosses⟩ := @Crosses.split _ _ _ _ [] _ crosses
  have atVerb := crosses.kind.trans isVerb
  obtain ⟨found, skipped⟩ := negation_answers are crossesWords (by simp [atVerb])
  obtain ⟨behind, verb, crosses⟩ := crosses.uncons
  have opens : behind.cursor.kind = .symbol .leftParen := by
    rw [← crosses.frontKind (by rintro rfl; cases grouped), grouped.front]
  unfold operation
  refine yields_bind.mpr ⟨found, between, skipped, ?_⟩
  rw [Step.yields_look_bind]
  simp only [cursor_expr, atVerb]
  refine yields_bind.mpr ⟨(), behind, advance_answers verb (by simp [isVerb]), ?_⟩
  rw [Step.yields_look_bind, cursor_expr, if_pos (at?_symbol.mpr opens)]
  exact parenthesized_answers complete sound grouped short crosses

end Tests

section Trees
variable (complete : Completes size nested) (sound : ReadsPhrases nested)
include complete sound

/-- Expressions in parentheses are read as the bytes that they cover. -/
theorem grouped_answers {items : List ExprTree} (grouped : Grouped Written items tokens)
    (short : tokens.length ≤ size) (crosses : Crosses before tokens (ownersOfItems items) after) :
    Yields (operand nested) before (.other ⟨before.cursor.start, after.cursor.previous.stop⟩)
      after := by
  have opens : before.cursor.kind = .symbol .leftParen := by
    rw [← crosses.frontKind (by rintro rfl; cases grouped), grouped.front]
  have kind : before.cursor.current.kind = .symbol .leftParen := opens
  refine operand_of_primary (by simp [opens, Expr.unaryPower?]) ?_
  unfold primary
  rw [Step.yields_look_bind]
  simp only [id_eq, cursor_expr, kind]
  exact yields_bind.mpr ⟨(), after, parenthesized_answers complete sound grouped short crosses,
    yields_spanningFrom.mpr ⟨rfl, rfl⟩⟩

/-- A conditional expression is read as the bytes that it covers. -/
theorem case_answers {subject otherwise : Option ExprTree}
    {branches : List (ExprTree × ExprTree)} {one two three : List Token} {opening closing : Token}
    (isCase : opening.kind = .keyword .CASE) (first : Announced (· = []) Written subject one)
    (some : branches ≠ []) (branched : Branched Written branches two)
    (last : Announced IsElse Written otherwise three)
    (isEnd : closing.kind = .keyword .END)
    (short : (opening :: (one ++ (two ++ (three ++ [closing])))).length ≤ size)
    (crosses : Crosses before (opening :: (one ++ (two ++ (three ++ [closing]))))
      (ownersOfPart subject ++ (ownersOfBranches branches ++ ownersOfPart otherwise)) after) :
    Yields (operand nested) before (.other ⟨before.cursor.start, after.cursor.previous.stop⟩)
      after := by
  have kind : before.cursor.current.kind = .keyword .CASE := crosses.kind.trans isCase
  refine operand_of_primary (by simp [crosses.kind, isCase, Expr.unaryPower?]) ?_
  unfold primary
  rw [Step.yields_look_bind]
  simp only [id_eq, cursor_expr, kind]
  exact yields_bind.mpr ⟨(), after,
    conditional_answers complete sound isCase first some branched last isEnd short crosses,
    yields_spanningFrom.mpr ⟨rfl, rfl⟩⟩

omit sound in
/-- An operator in front of its operand is read with it as the bytes that they cover. -/
theorem unary_answers {power : Nat} {operator : Token} {right : ExprTree}
    (binds : Expr.unaryPower? operator.kind = some power) (written : WrittenAt power right tokens)
    (short : tokens.length < size) (crosses : Crosses before (operator :: tokens) right.owners after)
    (ends : Expr.Ends power after.cursor.rest) :
    Yields (operand nested) before (.other ⟨before.cursor.start, after.cursor.previous.stop⟩)
      after := by
  have stands := crosses.kind
  obtain ⟨between, operator_, crosses⟩ := crosses.uncons
  obtain ⟨_, answers⟩ := complete written short crosses ends
  have uncounted : operator.kind ≠ .symbol .question := by
    intro is
    simp [is, Expr.unaryPower?] at binds
  unfold operand
  rw [Step.yields_look_bind, Step.yields_look_bind]
  simp only [cursor_expr, stands, binds]
  exact yields_bind.mpr ⟨(), between, advance_answers operator_ uncounted,
    yields_bind.mpr ⟨_, after, answers, yields_spanningFrom.mpr ⟨rfl, rfl⟩⟩⟩

section Operators
variable {place bound : Nat} (below : ClimbsBelow bound nested place before) (fits : bound ≤ size)
  {subject : ExprTree} {one two : List Token}
include below fits

/-- The operand on the left is read up to an operator that binds it. -/
theorem left_climbs {power : Nat} {middle : ExprState} (at_ : WrittenAt power subject one)
    (short : one.length < bound) (within : place ≤ power)
    (crosses : Crosses before one subject.owners middle)
    (holds : Expr.Holds power middle.cursor.kind)
    (tight : ¬ Expr.Holds (power + 1) middle.cursor.kind) :
    ∃ expr, Climbs nested place before expr middle := by
  cases at_ with
  | bare enough written =>
    rw [kind_eq_frontKind] at holds tight
    have follows := (Expr.follows_of_operator crosses.lexed_after holds tight).mono enough
    exact ⟨_, below written short (Nat.le_trans within enough) crosses follows⟩
  | bracketed _ grouped =>
    have items : Crosses before one (ownersOfItems [subject]) middle := by
      simpa [ownersOfItems] using crosses
    exact ⟨_, .of_operand (grouped_answers complete sound grouped (by omega) items)⟩

/-- The operand on the left is read with an operator that binds it and with what belongs to that. -/
theorem operation_climbs {power : Nat} {middle : ExprState} (at_ : WrittenAt power subject one)
    (short : one.length < bound) (within : place ≤ power)
    (crosses : Crosses before one subject.owners middle)
    (joins : Expr.binaryPower? middle.cursor.kind = some power)
    (noLone : atLoneNot middle.cursor = false)
    (ran : Yields (operation nested (power + 1)) middle () after) :
    Climbs nested place before (.other ⟨before.cursor.start, after.cursor.previous.stop⟩) after := by
  obtain ⟨holds, tight⟩ := Expr.holds_of_binary joins
  obtain ⟨_, climbs⟩ := left_climbs complete sound below fits at_ short within crosses holds tight
  exact climbs.round (expressionRound_goesOn joins within noLone ran)

/-- An operator between two operands is read with both. -/
theorem binary_climbs {sign : Token} {power : Nat} {right : ExprTree}
    (binds : (sign.kind, power) ∈ Expr.infixOperators) (first : WrittenAt power subject one)
    (second : WrittenAt (power + 1) right two) (short : (one ++ sign :: two).length ≤ bound)
    (within : place ≤ power)
    (crosses : Crosses before (one ++ sign :: two) (subject.owners ++ right.owners) after)
    (follows : Expr.Follows power after.cursor.rest) :
    Climbs nested place before (.other ⟨before.cursor.start, after.cursor.previous.stop⟩) after := by
  simp only [List.length_append, List.length_cons] at short
  obtain ⟨middle, crossesLeft, crosses⟩ := crosses.split
  have stands : middle.cursor.kind = sign.kind := crosses.kind
  have noNot : middle.cursor.kind ≠ .keyword .NOT := fun is =>
    Expr.not_mem_testWords binds (by simp [← stands, is, Expr.testWords])
  refine operation_climbs complete sound below fits first (by omega) within crossesLeft ?_ ?_
    (infix_answers complete binds second (by omega) crosses follows.ends)
  · rw [stands]
    exact Expr.binaryPower?_eq_some_iff.mpr (.inl binds)
  · simp [atLoneNot, Bool.eq_false_iff.mpr (not_atKeyword noNot)]

section Tests
variable {words : List Token} {negated : Bool} {verb : Token}
  (within : place ≤ Expr.comparisonPower) (first : WrittenAt Expr.comparisonPower subject one)
include within first

/-- A test for `NULL`, `TRUE` or `FALSE` is read with its subject. -/
theorem nullTest_climbs {value : Keyword} {last : Token} (isVerb : verb.kind = .keyword .IS)
    (are : words.map Token.kind = Expr.negation negated) (known : value ∈ [.NULL, .TRUE, .FALSE])
    (isLast : last.kind = .keyword value)
    (short : (one ++ (verb :: (words ++ [last]))).length ≤ bound)
    (crosses : Crosses before (one ++ (verb :: (words ++ [last]))) subject.owners after) :
    Climbs nested place before (.other ⟨before.cursor.start, after.cursor.previous.stop⟩) after := by
  simp only [List.length_append, List.length_cons] at short
  rw [← List.append_nil subject.owners] at crosses
  obtain ⟨middle, crossesLeft, crosses⟩ := crosses.split
  have stands := crosses.kind.trans isVerb
  exact operation_climbs complete sound below fits first (by omega) within crossesLeft
    (by simp [stands, Expr.binaryPower?]) (by simp [stands, atLoneNot, Cursor.atKeyword?])
    (nullTest_answers isVerb are known isLast crosses)

variable (are : words.map Token.kind = Expr.negation negated)
include are

/-- A test that may be negated is read with its subject. -/
theorem test_climbs {word : Keyword} {owners : List Token} (isVerb : verb.kind = .keyword word)
    (known : word ∈ [.IN, .BETWEEN, .LIKE])
    (short : (one ++ (words ++ verb :: two)).length ≤ bound)
    (crosses : Crosses before (one ++ (words ++ verb :: two)) (subject.owners ++ owners) after)
    (ran : ∀ {middle : ExprState}, Crosses middle (words ++ verb :: two) owners after →
      Yields (operation nested (Expr.comparisonPower + 1)) middle () after) :
    Climbs nested place before (.other ⟨before.cursor.start, after.cursor.previous.stop⟩) after := by
  simp only [List.length_append, List.length_cons] at short
  obtain ⟨middle, crossesLeft, crosses⟩ := crosses.split
  obtain ⟨joins, noLone⟩ := binds_of_negation are isVerb known crosses
  exact operation_climbs complete sound below fits first (by omega) within crossesLeft joins noLone
    (ran crosses)

end Tests

/-- A cast is read with its operand. -/
theorem cast_climbs {sign type : Token} {power : Nat} {arguments : List Token}
    (isSign : sign.kind = .symbol .doubleColon) (casts : Expr.castPower? sign.kind = some power)
    (first : WrittenAt power subject one) (isWritten : type.kind.isWritten = true)
    (are : arguments = [] ∨ Token.IsGroup arguments)
    (short : (one ++ (sign :: type :: arguments)).length ≤ bound) (within : place ≤ power)
    (crosses : Crosses before (one ++ (sign :: type :: arguments)) subject.owners after)
    (noGroup : after.cursor.kind ≠ .symbol .leftParen) :
    Climbs nested place before (.other ⟨before.cursor.start, after.cursor.previous.stop⟩) after := by
  simp only [List.length_append, List.length_cons] at short
  rw [← List.append_nil subject.owners] at crosses
  obtain ⟨middle, crossesLeft, crosses⟩ := crosses.split
  have stands : middle.cursor.kind = sign.kind := crosses.kind
  rw [← stands] at casts
  obtain ⟨holds, tight⟩ := Expr.holds_of_cast casts
  obtain ⟨_, climbs⟩ := left_climbs complete sound below fits first (by omega) within crossesLeft
    holds tight
  exact climbs.round (expressionRound_casts casts within
    (cast_answers isSign isWritten are crosses noGroup))

end Operators

/-- An expression is read up to its end, where what follows does not belong to it. -/
theorem climbs_of_written {place : Nat} (written : Written tree tokens) (short : tokens.length ≤ size)
    (within : place ≤ tree.power) (crosses : Crosses before tokens tree.owners after)
    (follows : Expr.Follows tree.power after.cursor.rest) :
    Climbs nested place before (tree.shape tokens) after := by
  induction length : tokens.length using Nat.strong_induction_on
    generalizing tree tokens after with
  | _ length ih =>
    subst length
    -- the operands on the left are shorter
    have below : ClimbsBelow tokens.length nested place before :=
      fun written less within crosses follows =>
        ih _ less written (Nat.le_of_lt (Nat.lt_of_lt_of_le less short)) within crosses follows rfl
    have spans (same : tree.shape tokens = .other (Token.cover tokens))
        (climbs : Climbs nested place before
          (.other ⟨before.cursor.start, after.cursor.previous.stop⟩) after) :
        Climbs nested place before (tree.shape tokens) after := by
      rw [same, crosses.cover (ne_nil_of_front written.front)]
      exact climbs
    have noPoint := follows.noPoint
    have noGroup := follows.noGroup
    rw [← kind_eq_frontKind] at noPoint noGroup
    cases written with
    | literal literal => exact .of_operand (literal_answers literal crosses)
    | placeholder is => exact .of_operand (placeholder_answers is crosses)
    | parameter are isWritten =>
      exact spans rfl (.of_operand (parameter_reads are isWritten crosses))
    | name dotted isWritten starts =>
      rw [owners, List.getLast?_map] at crosses
      rw [shape, List.getLast?_map]
      exact .of_operand (column_answers dotted isWritten starts crosses noPoint noGroup)
    | columns some dotted starts isStar =>
      rw [owners, List.getLast?_map] at crosses
      exact spans rfl (.of_operand (allColumns_answers some dotted starts isStar crosses))
    | call starts isGroup noSubquery =>
      exact spans rfl (.of_operand (call_answers starts isGroup noSubquery crosses))
    | list grouped =>
      exact spans rfl (.of_operand (grouped_answers complete sound grouped short crosses))
    | conditional isCase first some branched last isEnd =>
      exact spans rfl (.of_operand
        (case_answers complete sound isCase first some branched last isEnd short crosses))
    | unary is binds right =>
      subst is
      have known := Expr.unaryPower?_eq_some_iff.mpr binds
      rw [power, known] at follows
      exact spans rfl (.of_operand
        (unary_answers complete known right short crosses (follows.ends_of_unary known)))
    | binary is binds one two =>
      subst is
      rw [power, Expr.binaryPower?_eq_some_iff.mpr (.inl binds)] at within follows
      exact spans rfl (binary_climbs complete sound below short binds one two (Nat.le_refl _) within
        crosses follows)
    | nullTest one isVerb are known isLast =>
      exact spans rfl (nullTest_climbs complete sound below short within one isVerb are known isLast
        (Nat.le_refl _) crosses)
    | among one are isVerb grouped =>
      simp only [List.length_append, List.length_cons] at short
      exact spans rfl (test_climbs complete sound below (by simpa using short) within one are isVerb
        (by simp) (Nat.le_refl _) crosses
        (among_answers complete sound are isVerb grouped (by omega)))
    | between one are isVerb two isAnd three =>
      simp only [List.length_append, List.length_cons] at short
      exact spans rfl (test_climbs complete sound below (by simpa using short) within one are isVerb
        (by simp) (Nat.le_refl _) crosses fun crosses =>
          between_answers complete are isVerb two isAnd three (by simp; omega) (by decide) crosses
            follows.ends)
    | like one are isVerb two three =>
      simp only [List.length_append, List.length_cons] at short
      have noEscape : ¬ Expr.Escapes after.cursor.rest :=
        fun escapes => Nat.lt_irrefl _ (follows.noEscape escapes)
      exact spans rfl (test_climbs complete sound below (by simpa using short) within one are isVerb
        (by simp) (Nat.le_refl _) crosses fun crosses =>
          like_answers complete are isVerb two three (by simp; omega) (by decide) crosses
            follows.ends noEscape)
    | cast isSign casts one isWritten are =>
      rw [power, ← isSign, casts] at within
      exact spans rfl (cast_climbs complete sound below short isSign casts one isWritten are
        (Nat.le_refl _) within crosses noGroup)

omit complete in
/-- An expression is read where no operator behind it binds tightly enough. -/
theorem expressionWith_answers {place : Nat} {expr : Expr}
    (climbs : Climbs nested place before expr after)
    (stops : ¬ Expr.Holds place after.cursor.kind) :
    Yields (expressionWith nested place) before expr after := by
  obtain ⟨first, between, answers, reaches⟩ := climbs
  unfold expressionWith
  rw [Step.yields_look_bind]
  refine yields_bind.mpr ⟨first, between, answers, ?_⟩
  refine yields_rounding_of_rounds (reaches.rounds (.done (expressionRound_ends stops))) ?_
  intro value following before between answers
  rcases expressionRound_cases sound answers with ⟨ended, _⟩ | ⟨phrases, some, reads, _, _⟩
  · cases ended
  · have more := List.length_pos_iff.mpr (Phrase.text_ne_nil some)
    rw [cursor_expr, cursor_expr, reads.moves.rest, List.length_append]
    omega

/-- With a reader of nested expressions those are read that are written with one token more. -/
theorem expressionWith_completes : Completes (size + 1) (expressionWith nested) := by
  intro place tree tokens before after at_ short crosses ends
  have stops := ends.stops
  rw [← kind_eq_frontKind] at stops
  cases at_ with
  | bare enough written =>
    exact ⟨_, expressionWith_answers sound (climbs_of_written complete sound written
      (Nat.lt_succ_iff.mp short) enough crosses (ends.toFollows.mono enough)) stops⟩
  | bracketed _ grouped =>
    have items : Crosses before tokens (ownersOfItems [tree]) after := by
      simpa [ownersOfItems] using crosses
    exact ⟨_, expressionWith_answers sound
      (.of_operand (grouped_answers complete sound grouped (Nat.lt_succ_iff.mp short) items)) stops⟩

end Trees

end Operations

theorem completes_expressionWithin (depth : Nat) : Completes depth (expressionWithin depth) := by
  induction depth with
  | zero => exact fun _ short => absurd short (Nat.not_lt_zero _)
  | succ depth ih => exact expressionWith_completes ih (reads_expressionWithin depth)

/-- Every expression is read: where the tokens of a text that write a tree stand before the end of the
text, a comma, a closing parenthesis or a semicolon, the reader passes exactly them, answers the shape
of the tree, and collects its owners from left to right. -/
theorem expression_of_written {rest : List Token} (written : Written tree tokens)
    (stands : before.cursor.rest = tokens ++ rest) (lexed : Token.AreLexed before.cursor.rest)
    (ends : Token.frontKind rest ∈
      ([.endOfInput, .symbol .comma, .symbol .rightParen, .symbol .semicolon] : List TokenKind)) :
    ∃ after, Yields expression before (tree.shape tokens) after ∧
      Passes before.cursor tokens after.cursor ∧ after.cursor.rest = rest ∧
      after.qualifiers = before.qualifiers ++ tree.owners.map Name.ofToken := by
  obtain ⟨after, crosses, behind⟩ := exists_crosses stands lexed tree.owners
  refine ⟨after, ?_, crosses.passes, behind, crosses.qualifiers⟩
  have sound : ReadsPhrases (expressionWithin before.cursor.rest.length) := reads_expressionWithin _
  have complete : Completes before.cursor.rest.length (expressionWithin before.cursor.rest.length) :=
    completes_expressionWithin _
  have enough : tokens.length ≤ before.cursor.rest.length := by simp [stands]
  have ends : Expr.Ends 0 after.cursor.rest := by
    refine Expr.ends_of_mem crosses.lexed_after ?_
    rw [behind]
    revert ends
    generalize Token.frontKind rest = kind
    revert kind
    decide
  have climbs := climbs_of_written complete sound written enough (Nat.zero_le _) crosses
    (ends.toFollows.mono (Nat.zero_le _))
  have stops := ends.stops
  rw [← kind_eq_frontKind] at stops
  exact yields_look_bind.mpr (expressionWith_answers sound climbs stops)

/-- A pattern with an escape character under a `NOT`, beside a cast whose operand is bracketed. -/
theorem expression_of_written_of_pattern :
    let text := "NOT t.a LIKE ? ESCAPE '!' OR (1 OR b)::int, 2"
    let column : ExprTree := .name [⟨.identifier "t", 4, "t"⟩] ⟨.identifier "a", 6, "a"⟩
    let sign : ExprTree := .literal ⟨.string "!", 22, "'!'"⟩
    let number : ExprTree := .literal ⟨.integer 1, 30, "1"⟩
    let name : ExprTree := .name [] ⟨.identifier "b", 35, "b"⟩
    let tree : ExprTree :=
      .binary (.keyword .OR)
        (.unary (.keyword .NOT) (.like column false .placeholder (some sign)))
        (.cast (.binary (.keyword .OR) number name) ⟨.identifier "int", 39, "int"⟩ [])
    let before : ExprState := { cursor := { text, rest := Token.list text } }
    ∃ tokens rest, Written tree tokens ∧ Token.list text = tokens ++ rest ∧
      Token.frontKind rest = .symbol .comma ∧
      ∃ after, Yields expression before (.other ⟨0, 42⟩) after ∧ after.cursor.rest = rest ∧
        after.qualifiers = [⟨"t", 4⟩] := by
  intro text column sign number name tree before
  let point : Token := ⟨.symbol .dot, 5, "."⟩
  have dotted : Phrase.Dotted [(⟨.identifier "t", 4, "t"⟩, point)] := fun part member => by
    rw [List.mem_singleton.mp member]
    exact ⟨rfl, rfl⟩
  have columnWritten : Written column _ := @Written.name _ ⟨.identifier "a", 6, "a"⟩ dotted rfl rfl
  have signWritten : Written sign [⟨.string "!", 22, "'!'"⟩] := .literal (.inr rfl)
  have numberWritten : Written number [⟨.integer 1, 30, "1"⟩] := .literal (.inl ⟨1, rfl⟩)
  have nameWritten : Written name _ :=
    @Written.name [] ⟨.identifier "b", 35, "b"⟩ (by simp [Phrase.Dotted]) rfl rfl
  have placeholderWritten : Written .placeholder [⟨.symbol .question, 13, "?"⟩] :=
    .placeholder rfl
  have escapeWritten : Announced IsEscape (WrittenAt (Expr.comparisonPower + 1)) (some sign)
      ([⟨.identifier "ESCAPE", 15, "ESCAPE"⟩] ++ [⟨.string "!", 22, "'!'"⟩]) :=
    .present ⟨_, rfl, by decide⟩ (.bare (by decide) signWritten)
  have likeWritten := @Written.like _ _ false _ _ [] _ _ ⟨.keyword .LIKE, 8, "LIKE"⟩
    (.bare (by decide) columnWritten) rfl rfl (.bare (by decide) placeholderWritten) escapeWritten
  have notWritten := @Written.unary _ ⟨.keyword .NOT, 0, "NOT"⟩ 5 _ _ rfl (by decide)
    (.bare (by decide) likeWritten)
  have orWritten := @Written.binary _ ⟨.keyword .OR, 32, "OR"⟩ 1 _ _ _ _ rfl (by decide)
    (.bare (by decide) numberWritten) (.bare (by decide) nameWritten)
  have grouped : Grouped Written [_] _ := @Grouped.items _ _ _ _ ⟨.symbol .leftParen, 29, "("⟩
    ⟨.symbol .rightParen, 36, ")"⟩ rfl (.single orWritten) rfl
  have castWritten := @Written.cast _ _ [] ⟨.symbol .doubleColon, 37, "::"⟩
    ⟨.identifier "int", 39, "int"⟩ 21 rfl rfl (.bracketed (by decide) grouped) rfl (.inl rfl)
  have written : Written tree _ := @Written.binary _ ⟨.keyword .OR, 26, "OR"⟩ 1 _ _ _ _ rfl (by decide)
    (.bare (by decide) notWritten) (.bare (by decide) castWritten)
  obtain ⟨tokens, stands, cover, written⟩ : ∃ tokens, Token.list text =
      tokens ++ [⟨.symbol .comma, 42, ","⟩, ⟨.integer 2, 44, "2"⟩] ∧
      Token.cover tokens = ⟨0, 42⟩ ∧ Written tree tokens := by
    refine ⟨_, ?_, ?_, written⟩
    · decide +kernel
    · rfl
  obtain ⟨after, answers, _, behind, qualifiers⟩ :=
    @expression_of_written before _ tree _ written stands (Token.areLexed_list text) (by simp)
  have shape : tree.shape tokens = .other ⟨0, 42⟩ := congrArg Expr.other cover
  rw [shape] at answers
  exact ⟨_, _, written, stands, rfl, after, answers, behind, qualifiers⟩

end ExprStep

end SelectRouting
