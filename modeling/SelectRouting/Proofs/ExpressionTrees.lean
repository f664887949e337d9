import SelectRouting.Proofs.ExprPassage

/-!
# Expressions as trees

An expression is a tree of operands and operators. The operators are listed with their powers
(`Expr.unaryOperators`, `Expr.infixOperators`), and the reader knows no others. An expression is
written with parentheses around an operand exactly where the operator of the operand binds less
tightly than its place asks for (`ExprTree.WrittenAt`). Where it ends is decided by what stands behind
it: at the end are the conditions under which an operator, a point or the escape character of a
pattern is not taken into the expression before it (`Expr.Ends`).
-/

namespace SelectRouting

namespace Expr

/-- The power of an operand without an operator, which is above those of all operators. -/
def operandPower : Nat := 22

/-- The operators in front of an operand, with their powers. -/
def unaryOperators : List (TokenKind × Nat) :=
  [(.symbol .minus, 19), (.symbol .plus, 19), (.symbol .bitNot, 19), (.keyword .NOT, 5)]

/-- The operators that are one token between two operands, with their powers. -/
def infixOperators : List (TokenKind × Nat) :=
  [(.symbol .star, 17), (.symbol .slash, 17), (.symbol .percent, 17), (.symbol .plus, 15),
    (.symbol .minus, 15), (.symbol .concat, 15), (.symbol .leftShift, 13), (.symbol .rightShift, 13),
    (.symbol .bitAnd, 11), (.symbol .bitOr, 9), (.symbol .eq, 7), (.symbol .notEq, 7),
    (.symbol .lt, 7), (.symbol .ltEq, 7), (.symbol .gt, 7), (.symbol .gtEq, 7), (.keyword .AND, 3),
    (.keyword .OR, 1)]

/-- The words that begin a test, which have a grammar of their own. -/
def testWords : List TokenKind :=
  [.keyword .IS, .keyword .IN, .keyword .BETWEEN, .keyword .LIKE, .keyword .NOT]

section Operators
variable {kind : TokenKind} {power : Nat}

/-- The reader knows these operators in front of an operand and no others. -/
theorem unaryPower?_eq_some_iff :
    unaryPower? kind = some power ↔ (kind, power) ∈ unaryOperators := by
  unfold unaryPower?
  split <;> simp_all [unaryOperators, eq_comm]

/-- The reader knows these operators behind an operand, the words of tests and no others. -/
theorem binaryPower?_eq_some_iff : binaryPower? kind = some power ↔
    (kind, power) ∈ infixOperators ∨ kind ∈ testWords ∧ power = comparisonPower := by
  unfold binaryPower?
  split <;> simp_all [infixOperators, testWords, comparisonPower, eq_comm]

/-- An operator between two operands begins no test. -/
theorem not_mem_testWords (binds : (kind, power) ∈ infixOperators) : kind ∉ testWords := by
  have facts : ∀ operator ∈ infixOperators, operator.1 ∉ testWords := by decide
  exact facts _ binds

end Operators

/-- A column that stands with or without an owner. -/
def column (owner : Option Token) (last : Token) : Expr :=
  match owner with
  | some owner => .property (.ofToken owner) (.ofToken last)
  | none => .identifier (.ofToken last)

/-- The marks of a named parameter or a session variable. -/
def parameterMarks : List (List TokenKind) :=
  [[.symbol .colon], [.symbol .atSign], [.symbol .atSign, .symbol .atSign]]

/-- The tokens before a test that is negated or not. -/
def negation (negated : Bool) : List TokenKind :=
  if negated then [.keyword .NOT] else []

/-- Kinds that no expression begins with. -/
def noFronts : List TokenKind :=
  [.symbol .rightParen, .keyword .SELECT, .keyword .WHEN, .endOfInput]

end Expr

/-- An expression as a tree. Names, literals and arguments keep their tokens. -/
inductive ExprTree where
  /-- A number, a string, a blob, `NULL`, `TRUE` or `FALSE`. -/
  | literal (token : Token)
  | placeholder
  /-- A named parameter or a session variable. -/
  | parameter (name : Token)
  /-- A name; its parts before the last are owners. -/
  | name (owners : List Token) (last : Token)
  /-- All columns of an owner. -/
  | columns (owners : List Token)
  /-- A call; the arguments are the tokens from one parenthesis to the other. -/
  | call (function : Token) (arguments : List Token)
  /-- Expressions in parentheses. -/
  | list (items : List ExprTree)
  /-- A `CASE` with its conditions and results. -/
  | conditional (subject : Option ExprTree) (branches : List (ExprTree × ExprTree))
      (otherwise : Option ExprTree)
  | unary (operator : TokenKind) (operand : ExprTree)
  | binary (operator : TokenKind) (left right : ExprTree)
  /-- A test for `NULL`, `TRUE` or `FALSE`. -/
  | nullTest (subject : ExprTree) (negated : Bool) (value : Keyword)
  | among (subject : ExprTree) (negated : Bool) (items : List ExprTree)
  | between (subject : ExprTree) (negated : Bool) (lower upper : ExprTree)
  | like (subject : ExprTree) (negated : Bool) (pattern : ExprTree) (escape : Option ExprTree)
  | cast (operand : ExprTree) (type : Token) (arguments : List Token)

namespace ExprTree

/-- The power of the operator at the top. -/
def power : ExprTree → Nat
  | .unary operator _ => (Expr.unaryPower? operator).getD 0
  | .binary operator _ _ => (Expr.binaryPower? operator).getD 0
  | .nullTest .. | .among .. | .between .. | .like .. => Expr.comparisonPower
  | .cast .. => (Expr.castPower? (.symbol .doubleColon)).getD 0
  | _ => Expr.operandPower

/-- The shape of the tree, when `tokens` write it. -/
def shape (tokens : List Token) : ExprTree → Expr
  | .literal token =>
    match token.kind with
    | .integer value => .number value
    | _ => .other (Token.cover tokens)
  | .name owners last => Expr.column owners.getLast? last
  | _ => .other (Token.cover tokens)

mutual

/-- The owners of columns in the tree, from left to right: of a name the part before the last, of
all columns the last part, and of arguments every name before a point. -/
def owners : ExprTree → List Token
  | .literal _ | .placeholder | .parameter _ => []
  | .name owners _ | .columns owners => owners.getLast?.toList
  | .call _ arguments => Token.owners arguments
  | .list items => ownersOfItems items
  | .conditional subject branches otherwise =>
    ownersOfPart subject ++ (ownersOfBranches branches ++ ownersOfPart otherwise)
  | .unary _ operand => operand.owners
  | .binary _ left right => left.owners ++ right.owners
  | .nullTest subject _ _ => subject.owners
  | .among subject _ items => subject.owners ++ ownersOfItems items
  | .between subject _ lower upper => subject.owners ++ (lower.owners ++ upper.owners)
  | .like subject _ pattern escape => subject.owners ++ (pattern.owners ++ ownersOfPart escape)
  | .cast operand _ _ => operand.owners

/-- The owners in expressions that stand one after the other. -/
def ownersOfItems : List ExprTree → List Token
  | [] => []
  | item :: items => item.owners ++ ownersOfItems items

/-- The owners in an expression that may be missing. -/
def ownersOfPart : Option ExprTree → List Token
  | none => []
  | some part => part.owners

/-- The owners in the branches of a `CASE`. -/
def ownersOfBranches : List (ExprTree × ExprTree) → List Token
  | [] => []
  | (condition, result) :: branches =>
    condition.owners ++ (result.owners ++ ownersOfBranches branches)

end

section Parts
variable {α : Type}

/-- The parts are written one after the other with commas between them. -/
inductive Separated (writes : α → List Token → Prop) : List α → List Token → Prop where
  | single {part : α} {tokens : List Token} : writes part tokens → Separated writes [part] tokens
  | cons {part : α} {others : List α} {tokens rest : List Token} {comma : Token} :
      writes part tokens → comma.kind = .symbol .comma → Separated writes others rest →
        Separated writes (part :: others) (tokens ++ comma :: rest)

/-- The parts are written in parentheses, which may be empty. -/
inductive Grouped (writes : α → List Token → Prop) : List α → List Token → Prop where
  | empty {opening closing : Token} : opening.kind = .symbol .leftParen →
      closing.kind = .symbol .rightParen → Grouped writes [] [opening, closing]
  | items {parts : List α} {tokens : List Token} {opening closing : Token} :
      opening.kind = .symbol .leftParen → Separated writes parts tokens →
        closing.kind = .symbol .rightParen →
          Grouped writes parts (opening :: (tokens ++ [closing]))

/-- The part is written behind the tokens that announce it, or missing with them. -/
inductive Announced (announces : List Token → Prop) (writes : α → List Token → Prop) :
    Option α → List Token → Prop where
  | absent : Announced announces writes none []
  | present {part : α} {lead tokens : List Token} : announces lead → writes part tokens →
      Announced announces writes (some part) (lead ++ tokens)

/-- The branches of a `CASE` are written one after the other. -/
inductive Branched (writes : α → List Token → Prop) : List (α × α) → List Token → Prop where
  | nil : Branched writes [] []
  | cons {condition result : α} {branches : List (α × α)} {first second rest : List Token}
      {asks answers : Token} : asks.kind = .keyword .WHEN → writes condition first →
        answers.kind = .keyword .THEN → writes result second → Branched writes branches rest →
          Branched writes ((condition, result) :: branches)
            (asks :: (first ++ (answers :: (second ++ rest))))

end Parts

/-- The word before the last result of a `CASE`. -/
def IsElse (lead : List Token) : Prop :=
  ∃ word, lead = [word] ∧ word.kind = .keyword .ELSE

/-- The word before the escape character of a pattern, which is no keyword. -/
def IsEscape (lead : List Token) : Prop :=
  ∃ word, lead = [word] ∧ Text.sameIgnoringCase word.lexeme "ESCAPE" = true

mutual

/-- The tokens write the tree. -/
inductive Written : ExprTree → List Token → Prop where
  | literal {token : Token} :
      (∃ value, token.kind = .integer value) ∨ Expr.isLiteral token.kind = true →
        Written (.literal token) [token]
  | placeholder {token : Token} : token.kind = .symbol .question → Written .placeholder [token]
  | parameter {marks : List Token} {name : Token} : marks.map Token.kind ∈ Expr.parameterMarks →
      name.kind.isWritten = true → Written (.parameter name) (marks ++ [name])
  | name {owners : List (Token × Token)} {last : Token} : Phrase.Dotted owners →
      last.kind.isWritten = true →
        Expr.startsColumn (Token.frontKind (Phrase.joined owners ++ [last])) = true →
          Written (.name (owners.map Prod.fst) last) (Phrase.joined owners ++ [last])
  | columns {owners : List (Token × Token)} {star : Token} : owners ≠ [] → Phrase.Dotted owners →
      Expr.startsColumn (Token.frontKind (Phrase.joined owners)) = true →
        star.kind = .symbol .star →
          Written (.columns (owners.map Prod.fst)) (Phrase.joined owners ++ [star])
  | call {function : Token} {arguments : List Token} : Expr.startsCall function.kind = true →
      Token.IsGroup arguments → Token.subqueries arguments = [] →
        Written (.call function arguments) (function :: arguments)
  | list {items : List ExprTree} {tokens : List Token} : Grouped Written items tokens →
      Written (.list items) tokens
  | conditional {subject otherwise : Option ExprTree} {branches : List (ExprTree × ExprTree)}
      {one two three : List Token} {opening closing : Token} : opening.kind = .keyword .CASE →
        Announced (· = []) Written subject one → branches ≠ [] → Branched Written branches two →
          Announced IsElse Written otherwise three →
            closing.kind = .keyword .END →
              Written (.conditional subject branches otherwise)
                (opening :: (one ++ (two ++ (three ++ [closing]))))
  | unary {operator : TokenKind} {sign : Token} {power : Nat} {operand : ExprTree}
      {tokens : List Token} : sign.kind = operator → (operator, power) ∈ Expr.unaryOperators →
        WrittenAt power operand tokens → Written (.unary operator operand) (sign :: tokens)
  | binary {operator : TokenKind} {sign : Token} {power : Nat} {left right : ExprTree}
      {one two : List Token} : sign.kind = operator → (operator, power) ∈ Expr.infixOperators →
        WrittenAt power left one → WrittenAt (power + 1) right two →
          Written (.binary operator left right) (one ++ sign :: two)
  | nullTest {subject : ExprTree} {negated : Bool} {value : Keyword} {one words : List Token}
      {verb last : Token} : WrittenAt Expr.comparisonPower subject one →
        verb.kind = .keyword .IS → words.map Token.kind = Expr.negation negated →
          value ∈ [.NULL, .TRUE, .FALSE] → last.kind = .keyword value →
            Written (.nullTest subject negated value) (one ++ (verb :: (words ++ [last])))
  | among {subject : ExprTree} {negated : Bool} {items : List ExprTree}
      {one words two : List Token} {verb : Token} : WrittenAt Expr.comparisonPower subject one →
        words.map Token.kind = Expr.negation negated → verb.kind = .keyword .IN →
          Grouped Written items two →
            Written (.among subject negated items) (one ++ (words ++ verb :: two))
  | between {subject lower upper : ExprTree} {negated : Bool} {one words two three : List Token}
      {verb joint : Token} : WrittenAt Expr.comparisonPower subject one →
        words.map Token.kind = Expr.negation negated → verb.kind = .keyword .BETWEEN →
          WrittenAt (Expr.comparisonPower + 1) lower two → joint.kind = .keyword .AND →
            WrittenAt (Expr.comparisonPower + 1) upper three →
              Written (.between subject negated lower upper)
                (one ++ (words ++ verb :: (two ++ joint :: three)))
  | like {subject pattern : ExprTree} {negated : Bool} {escape : Option ExprTree}
      {one words two three : List Token} {verb : Token} :
        WrittenAt Expr.comparisonPower subject one →
          words.map Token.kind = Expr.negation negated → verb.kind = .keyword .LIKE →
            WrittenAt (Expr.comparisonPower + 1) pattern two →
              Announced IsEscape (WrittenAt (Expr.comparisonPower + 1)) escape three →
                Written (.like subject negated pattern escape)
                  (one ++ (words ++ verb :: (two ++ three)))
  | cast {operand : ExprTree} {one arguments : List Token} {sign type : Token} {power : Nat} :
      sign.kind = .symbol .doubleColon → Expr.castPower? sign.kind = some power →
        WrittenAt power operand one → type.kind.isWritten = true →
          arguments = [] ∨ Token.IsGroup arguments →
            Written (.cast operand type arguments) (one ++ (sign :: type :: arguments))

/-- The tokens write the tree where an operator of the power `place` takes it as an operand. -/
inductive WrittenAt : (place : Nat) → ExprTree → List Token → Prop where
  | bare {place : Nat} {tree : ExprTree} {tokens : List Token} : place ≤ tree.power →
      Written tree tokens → WrittenAt place tree tokens
  | bracketed {place : Nat} {tree : ExprTree} {tokens : List Token} : tree.power < place →
      Grouped Written [tree] tokens → WrittenAt place tree tokens

end

section Fronts
variable {tree : ExprTree} {tokens : List Token} {place : Nat}

theorem Grouped.front {α : Type} {writes : α → List Token → Prop} {parts : List α}
    (grouped : Grouped writes parts tokens) : Token.frontKind tokens = .symbol .leftParen := by
  cases grouped with
  | empty opening | items opening => exact opening

/-- A kind that passes a test is none of those with which no expression begins, when they fail it. -/
theorem not_mem_noFronts (test : TokenKind → Bool) {kind : TokenKind} (passes : test kind = true)
    (fail : ∀ other ∈ Expr.noFronts, test other = false) : kind ∉ Expr.noFronts := by
  intro member
  rw [fail kind member] at passes
  cases passes

theorem ne_nil_of_front (front : Token.frontKind tokens ∉ Expr.noFronts) : tokens ≠ [] := by
  rintro rfl
  exact front (by decide)

theorem front_append {first second : List Token} (front : Token.frontKind first ∉ Expr.noFronts) :
    Token.frontKind (first ++ second) ∉ Expr.noFronts := by
  rwa [Token.frontKind_append (ne_nil_of_front front)]

/-- A named parameter has one mark, and a session variable may have two. -/
theorem cases_of_parameterMarks {marks : List Token}
    (are : marks.map Token.kind ∈ Expr.parameterMarks) :
    ∃ mark others, marks = mark :: others ∧
      (mark.kind = .symbol .colon ∨ mark.kind = .symbol .atSign) ∧
      (others = [] ∨ ∃ second, others = [second] ∧ second.kind = .symbol .atSign) := by
  rcases marks with _ | ⟨mark, _ | ⟨second, _ | ⟨third, others⟩⟩⟩
  · simp [Expr.parameterMarks] at are
  · exact ⟨mark, [], rfl, by simpa [Expr.parameterMarks] using are, .inl rfl⟩
  · obtain ⟨first, last⟩ : mark.kind = .symbol .atSign ∧ second.kind = .symbol .atSign := by
      simpa [Expr.parameterMarks] using are
    exact ⟨mark, [second], rfl, .inr first, .inr ⟨second, rfl, last⟩⟩
  · simp [Expr.parameterMarks] at are

/-- What begins an expression is neither the end of a group nor a word before a nested one. -/
theorem Written.front (written : Written tree tokens) :
    Token.frontKind tokens ∉ Expr.noFronts := by
  induction size : tokens.length using Nat.strong_induction_on generalizing tree tokens with
  | _ size ih =>
    subst size
    -- an operand on the left begins the expression
    have operand {place : Nat} {left : ExprTree} {first rest : List Token}
        (at_ : WrittenAt place left first) (some : rest ≠ []) (whole : tokens = first ++ rest) :
        Token.frontKind tokens ∉ Expr.noFronts := by
      rw [whole]
      refine front_append ?_
      cases at_ with
      | bare _ inner =>
        have shorter := List.length_pos_iff.mpr some
        exact ih _ (by simp [whole, shorter]) inner rfl
      | bracketed _ grouped =>
        rw [grouped.front]
        decide
    cases written with
    | literal literal =>
      rcases literal with ⟨value, number⟩ | literal
      · simp [number, Expr.noFronts]
      · exact not_mem_noFronts Expr.isLiteral literal (by decide)
    | placeholder is =>
      rw [Token.frontKind_cons, is]
      decide
    | parameter are =>
      obtain ⟨mark, rest, rfl, stands, _⟩ := cases_of_parameterMarks are
      refine front_append ?_
      rcases stands with is | is <;>
      · rw [Token.frontKind_cons, is]
        decide
    | name _ _ starts => exact not_mem_noFronts Expr.startsColumn starts (by decide)
    | columns some _ starts =>
      exact front_append (not_mem_noFronts Expr.startsColumn starts (by decide))
    | call starts => exact not_mem_noFronts Expr.startsCall starts (by decide)
    | list grouped =>
      rw [grouped.front]
      decide
    | conditional opening =>
      rw [Token.frontKind_cons, opening]
      decide
    | unary is binds =>
      have known := Expr.unaryPower?_eq_some_iff.mpr binds
      exact not_mem_noFronts (fun kind => (Expr.unaryPower? kind).isSome) (by simp [is, known])
        (by decide)
    | binary _ _ left => exact operand left (by simp) rfl
    | nullTest left => exact operand left (by simp) rfl
    | among left => exact operand left (by simp) rfl
    | between left => exact operand left (by simp) rfl
    | like left => exact operand left (by simp) rfl
    | cast _ _ left => exact operand left (by simp) rfl

theorem Separated.front {trees : List ExprTree} (separated : Separated Written trees tokens) :
    Token.frontKind tokens ∉ Expr.noFronts := by
  cases separated with
  | single written => exact written.front
  | cons written => exact front_append written.front

end Fronts

end ExprTree

namespace Expr

theorem Holds.mono {power place : Nat} {kind : TokenKind} (holds : Holds power kind)
    (within : place ≤ power) : Holds place kind := by
  rcases holds with ⟨binding, casts, enough⟩ | ⟨binding, binds, enough⟩
  · exact .inl ⟨binding, casts, Nat.le_trans within enough⟩
  · exact .inr ⟨binding, binds, Nat.le_trans within enough⟩

theorem castPower?_of_binary {kind : TokenKind} {power : Nat}
    (binds : binaryPower? kind = some power) : castPower? kind = none := by
  unfold binaryPower? at binds
  split at binds <;> simp_all [castPower?]

/-- What binds an operand on its left is a symbol or a keyword. -/
theorem Holds.isOperator {power : Nat} {kind : TokenKind} (holds : Holds power kind) :
    kind.isSymbol = true ∨ ∃ word, kind = .keyword word := by
  rcases holds with ⟨binding, casts, _⟩ | ⟨binding, binds, _⟩
  · unfold castPower? at casts
    split at casts <;> simp_all [TokenKind.isSymbol]
  · unfold binaryPower? at binds
    split at binds <;> simp_all [TokenKind.isSymbol]

theorem holds_of_binary {kind : TokenKind} {power : Nat} (binds : binaryPower? kind = some power) :
    Holds power kind ∧ ¬ Holds (power + 1) kind := by
  refine ⟨.inr ⟨power, binds, Nat.le_refl power⟩, ?_⟩
  rintro (⟨_, casts, _⟩ | ⟨other, same, enough⟩)
  · simp [castPower?_of_binary binds] at casts
  · rw [binds] at same
    cases same
    exact Nat.not_succ_le_self power enough

theorem holds_of_cast {kind : TokenKind} {power : Nat} (casts : castPower? kind = some power) :
    Holds power kind ∧ ¬ Holds (power + 1) kind := by
  refine ⟨.inl ⟨power, casts, Nat.le_refl power⟩, ?_⟩
  rintro (⟨other, same, enough⟩ | ⟨_, binds, _⟩)
  · rw [casts] at same
    cases same
    exact Nat.not_succ_le_self power enough
  · simp [castPower?_of_binary binds] at casts

/-- No operator in front of an operand has the power of one behind it. -/
theorem not_holds_of_unary {power : Nat} {operator kind : TokenKind}
    (binds : unaryPower? operator = some power) (behind : ¬ Holds (power + 1) kind) :
    ¬ Holds power kind := by
  have powers : power = 19 ∨ power = 5 := by
    unfold unaryPower? at binds
    split at binds <;> simp_all
  rintro (⟨binding, casts, enough⟩ | ⟨binding, joins, enough⟩)
  · have known : binding = 21 := by
      unfold castPower? at casts
      split at casts <;> simp_all
    exact behind (.inl ⟨binding, casts, by omega⟩)
  · have other : binding ≠ 19 ∧ binding ≠ 5 := by
      unfold binaryPower? at joins
      split at joins <;> simp_all [comparisonPower] <;> omega
    exact behind (.inr ⟨binding, joins, by omega⟩)

/-- The word that introduces the escape character of a pattern stands at the front. -/
def Escapes (tokens : List Token) : Prop :=
  ∃ token ∈ tokens.head?, Text.sameIgnoringCase token.lexeme "ESCAPE" = true

/-- What `rest` begins with does not belong to an expression of the given power that stands before
it. -/
structure Follows (power : Nat) (rest : List Token) : Prop where
  noPoint : Token.frontKind rest ≠ .symbol .dot
  noGroup : Token.frontKind rest ≠ .symbol .leftParen
  noOperator : ¬ Holds (power + 1) (Token.frontKind rest)
  noEscape : Escapes rest → comparisonPower < power

/-- An operand in the given place ends where `rest` begins. -/
structure Ends (place : Nat) (rest : List Token) : Prop extends Follows place rest where
  stops : ¬ Holds place (Token.frontKind rest)

theorem Follows.mono {power place : Nat} {rest : List Token} (follows : Follows place rest)
    (within : place ≤ power) : Follows power rest where
  noPoint := follows.noPoint
  noGroup := follows.noGroup
  noOperator holds := follows.noOperator (holds.mono (Nat.succ_le_succ within))
  noEscape escapes := Nat.lt_of_lt_of_le (follows.noEscape escapes) within

/-- The right operand of an operator ends where the expression does. -/
theorem Follows.ends {power : Nat} {rest : List Token} (follows : Follows power rest) :
    Ends (power + 1) rest :=
  ⟨follows.mono (Nat.le_succ power), follows.noOperator⟩

theorem Follows.ends_of_unary {power : Nat} {operator : TokenKind} {rest : List Token}
    (follows : Follows power rest) (binds : unaryPower? operator = some power) : Ends power rest :=
  ⟨follows, not_holds_of_unary binds follows.noOperator⟩

/-- Kinds that end every expression. -/
def endings : List TokenKind :=
  [.endOfInput, .symbol .comma, .symbol .rightParen, .symbol .semicolon, .keyword .WHEN,
    .keyword .THEN, .keyword .ELSE, .keyword .END]

/-- The kind has no text of its own, or the text is the spelling of a keyword. -/
def isFixed (kind : TokenKind) : Bool :=
  !kind.isWritten || kind.keyword?.isSome

/-- Neither a symbol nor a keyword introduces an escape character. -/
theorem not_escapes {rest : List Token} (lexed : Token.AreLexed rest)
    (fixed : isFixed (Token.frontKind rest) = true) : ¬ Escapes rest := by
  rintro ⟨token, first, spelled⟩
  obtain ⟨others, rfl⟩ := List.head?_eq_some_iff.mp first
  have isLexed := lexed token List.mem_cons_self
  rw [isFixed, Token.frontKind_cons, isLexed.isWritten_of_word spelled (by decide)] at fixed
  obtain ⟨word, named⟩ := Option.isSome_iff_exists.mp fixed
  have is : token.kind = .keyword word := by
    unfold TokenKind.keyword? at named
    split at named <;> simp_all
  have spelling := isLexed.spells_keyword is
  unfold Text.sameIgnoringCase at spelling spelled
  rw [beq_iff_eq] at spelling spelled
  rw [spelled] at spelling
  revert spelling
  cases word <;> decide

/-- An operator may stand behind its left operand. -/
theorem follows_of_operator {power : Nat} {rest : List Token} (lexed : Token.AreLexed rest)
    (holds : Holds power (Token.frontKind rest))
    (tight : ¬ Holds (power + 1) (Token.frontKind rest)) : Follows power rest where
  noPoint point := by simp [point, Holds, castPower?, binaryPower?] at holds
  noGroup group := by simp [group, Holds, castPower?, binaryPower?] at holds
  noOperator := tight
  noEscape escapes := by
    refine absurd escapes (not_escapes lexed ?_)
    rcases holds.isOperator with symbol | ⟨word, is⟩
    · simp [isFixed, TokenKind.isWritten, symbol]
    · simp [isFixed, TokenKind.keyword?, is]

theorem ends_of_fixed {place : Nat} {rest : List Token} (lexed : Token.AreLexed rest)
    (fixed : isFixed (Token.frontKind rest) = true)
    (noPoint : Token.frontKind rest ≠ .symbol .dot)
    (noGroup : Token.frontKind rest ≠ .symbol .leftParen)
    (stops : ¬ Holds place (Token.frontKind rest)) : Ends place rest where
  noPoint := noPoint
  noGroup := noGroup
  noOperator holds := stops (holds.mono (Nat.le_succ place))
  noEscape escapes := absurd escapes (not_escapes lexed fixed)
  stops := stops

theorem ends_of_mem {place : Nat} {rest : List Token} (lexed : Token.AreLexed rest)
    (member : Token.frontKind rest ∈ endings) : Ends place rest := by
  have facts : ∀ kind ∈ endings, isFixed kind = true ∧ kind ≠ .symbol .dot ∧
      kind ≠ .symbol .leftParen ∧ castPower? kind = none ∧ binaryPower? kind = none := by decide
  obtain ⟨fixed, noPoint, noGroup, noCast, noOperator⟩ := facts _ member
  refine ends_of_fixed lexed fixed noPoint noGroup ?_
  rintro (⟨_, casts, _⟩ | ⟨_, binds, _⟩)
  · simp [noCast] at casts
  · simp [noOperator] at binds

/-- The word that introduces an escape character ends the pattern before it. -/
theorem ends_of_escape {place : Nat} {rest : List Token} (lexed : Token.AreLexed rest)
    (escapes : Escapes rest) (tight : comparisonPower < place) : Ends place rest := by
  have noOperator : isFixed (Token.frontKind rest) = false :=
    Bool.eq_false_iff.mpr fun fixed => not_escapes lexed fixed escapes
  have stops {power : Nat} : ¬ Holds power (Token.frontKind rest) := by
    intro holds
    rcases holds.isOperator with symbol | ⟨word, is⟩
    · simp [isFixed, TokenKind.isWritten, symbol] at noOperator
    · simp [isFixed, TokenKind.keyword?, is] at noOperator
  refine ⟨⟨?_, ?_, stops, fun _ => tight⟩, stops⟩
  · intro point
    simp [isFixed, TokenKind.isWritten, TokenKind.isSymbol, point] at noOperator
  · intro group
    simp [isFixed, TokenKind.isWritten, TokenKind.isSymbol, group] at noOperator

end Expr

end SelectRouting
