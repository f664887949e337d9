import SelectRouting.Proofs.ExpressionAnswers
import SelectRouting.Proofs.ExpressionEnds

/-!
# Expressions of keys

The expression of a key has the shape of a column or of a number exactly when the tokens before its
direction are a dotted name or the number alone (`Token.WritesKey`): such tokens are read as they are
written (`ExprStep.expression_of_key`), and nothing else has the shape
(`ExprStep.writesKey_of_shapes`). The shape decides on the key (`Expr.columnKey?`, `Expr.orderKey?`).
-/

namespace SelectRouting

namespace Phrase

@[simp] theorem joined_cons (part : Token × Token) (owners : List (Token × Token)) :
    joined (part :: owners) = part.1 :: part.2 :: joined owners := rfl

/-- Where one text begins with two dotted names, of which no point stands behind the first, they are
the same, or the second one ends before a point of the first. -/
theorem joined_cases {owners others : List (Token × Token)} {last other : Token}
    {rest more : List Token} (dotted : Dotted others)
    (same : joined owners ++ last :: rest = joined others ++ other :: more)
    (noPoint : Token.frontKind rest ≠ .symbol .dot) :
    (owners = others ∧ last = other ∧ rest = more) ∨
      ∃ point behind, owners = others ++ (other, point) :: behind := by
  induction owners generalizing others with
  | nil =>
    cases others with
    | nil =>
      obtain ⟨rfl, rfl⟩ := List.cons.inj same
      exact .inl ⟨rfl, rfl, rfl⟩
    | cons part others =>
      obtain ⟨_, rest⟩ := List.cons.inj same
      rw [rest] at noPoint
      exact absurd (dotted part List.mem_cons_self).2 noPoint
  | cons part owners ih =>
    cases others with
    | nil =>
      obtain ⟨rfl, _⟩ := List.cons.inj same
      exact .inr ⟨part.2, owners, rfl⟩
    | cons first others =>
      simp only [joined_cons, List.cons_append, List.cons.injEq] at same
      obtain ⟨one, two, same⟩ := same
      obtain rfl : part = first := Prod.ext one two
      have dotted : Dotted others := fun part member => dotted part (List.mem_cons_of_mem _ member)
      rcases ih dotted same with ⟨rfl, outcome⟩ | ⟨point, behind, rfl⟩
      · exact .inl ⟨rfl, outcome⟩
      · exact .inr ⟨point, behind, rfl⟩

end Phrase

namespace Token

/-- The tokens are a number or a column, of which the shape is told. -/
inductive WritesKey : List Token → Expr → Prop where
  | number {token : Token} {value : Nat} : token.kind = .integer value →
      WritesKey [token] (.number value)
  | column {owners : List (Token × Token)} {last : Token} : Phrase.Dotted owners →
      last.kind.isWritten = true →
      Expr.startsColumn (frontKind (Phrase.joined owners ++ [last])) = true →
        WritesKey (Phrase.joined owners ++ [last]) (.column (owners.getLast?.map Prod.fst) last)

/-- The tokens are a direction, or none for the ascending one. -/
inductive Directs : List Token → Direction → Prop where
  | absent : Directs [] .ascending
  | ascending {token : Token} : token.kind = .keyword .ASC → Directs [token] .ascending
  | descending {token : Token} : token.kind = .keyword .DESC → Directs [token] .descending

section Directs
variable {tokens : List Token} {direction : Direction}

/-- Behind a column or a number nothing of the expression begins with a direction. -/
theorem Directs.noOperator (directs : Directs tokens direction) (power : Nat) :
    frontKind tokens ≠ .symbol .dot ∧ frontKind tokens ≠ .symbol .leftParen ∧
      ¬ Expr.Holds power (frontKind tokens) := by
  unfold Expr.Holds
  cases directs with
  | absent => simp [frontKind, Expr.castPower?, Expr.binaryPower?]
  | ascending is | descending is => simp [frontKind, is, Expr.castPower?, Expr.binaryPower?]

theorem Directs.unique {other : Direction} (left : Directs tokens direction)
    (right : Directs tokens other) : direction = other := by
  cases left <;> cases right <;> simp_all

theorem Directs.balanced (directs : Directs tokens direction) : Balanced tokens := by
  cases directs with
  | absent => exact .nil
  | ascending is | descending is => exact .single (by simp [is]) (by simp [is]) (by simp [is])

end Directs

end Token

namespace ExprStep
open Scan Step Cursor ExprState

section Operands
variable {nested : Nat → ExprStep Expr} {before after : ExprState} {expr : Expr}

theorem name_moves (starts : Expr.startsColumn before.cursor.kind = true)
    (answers : Yields name before expr after) :
    (∃ function arguments, Token.IsGroup arguments ∧
        Moves before.cursor (function :: arguments) after.cursor) ∨
      ∃ phrase, NameRead before.cursor.start after.cursor.rest phrase expr ∧
        Moves before.cursor phrase.tokens after.cursor := by
  rcases name_cases starts answers with
    ⟨function, arguments, _, closing, passes, _⟩ | ⟨phrase, _, _, _, _, read, passes, _⟩
  · exact .inl ⟨function, arguments, closing, passes.toMoves⟩
  · exact .inr ⟨phrase, read, passes.toMoves⟩

/-- An operand that begins as a column is a call, or is read as a name. -/
theorem operand_cases_of_column (starts : Expr.startsColumn before.cursor.kind = true)
    (answers : Yields (operand nested) before expr after) :
    (∃ function arguments, Token.IsGroup arguments ∧
        Moves before.cursor (function :: arguments) after.cursor) ∨
      ∃ phrase, NameRead before.cursor.start after.cursor.rest phrase expr ∧
        Moves before.cursor phrase.tokens after.cursor := by
  have kind : before.cursor.current.kind = before.cursor.kind := rfl
  unfold operand at answers
  rw [Step.yields_look_bind, Step.yields_look_bind] at answers
  have noOperator : Expr.unaryPower? before.cursor.kind = none := by
    unfold Expr.startsColumn at starts
    split at starts
    · next written is => simp [is, Expr.unaryPower?]
    · next word is =>
      have plain := @plain_of_startsCall word (by simp [Expr.startsCall, starts])
      simp only [List.mem_cons, List.not_mem_nil, or_false, not_or] at plain
      simp [is, Expr.unaryPower?, plain]
    · cases starts
  simp only [cursor_expr, noOperator] at answers
  unfold primary at answers
  rw [Step.yields_look_bind] at answers
  simp only [id_eq, cursor_expr, kind] at answers
  split at answers
  case h_14 => exact name_moves starts answers
  case h_15 word _ _ _ _ _ is =>
    rcases yields_ite.mp answers with ⟨called, answers⟩ | ⟨_, answers⟩
    · rw [Bool.and_eq_true, beq_iff_eq] at called
      obtain ⟨function, arguments, _, reads⟩ : ∃ function arguments, _ ∧
          ReadsAs 0 before [.call function arguments] expr after :=
        call_reads is called.1 called.2 answers
      have moves := reads.moves
      exact .inl ⟨function, arguments, reads.fit.1.2, by simpa [Phrase.tokens] using moves⟩
    · rcases yields_ite.mp answers with ⟨_, answers⟩ | ⟨_, failed⟩
      · exact name_moves starts answers
      · exact absurd failed Step.not_yields_fail
  case h_16 =>
    unfold Expr.startsColumn at starts
    split at starts <;> simp_all
  all_goals
    next is =>
      rw [is] at starts
      cases starts

/-- A number alone is read as its value. -/
theorem operand_cases_of_number {value : Nat} (stands : before.cursor.kind = .integer value)
    (answers : Yields (operand nested) before expr after) :
    expr = .number value ∧ ∃ token, Moves before.cursor [token] after.cursor := by
  have kind : before.cursor.current.kind = before.cursor.kind := rfl
  unfold operand primary at answers
  simp only [Step.yields_look_bind, cursor_expr, stands, Expr.unaryPower?, id_eq, kind,
    Step.yields_advance_bind, yields_pure] at answers
  obtain ⟨rfl, rfl⟩ := answers
  obtain ⟨token, _, _, passes⟩ := passes_advance stands (by simp) (by simp)
  exact ⟨rfl, token, passes.toMoves⟩

/-- Where an operand and what follows it are a key and a direction, the operand is the key. -/
theorem operand_of_key {tokens behind rest written directed : List Token} {shape : Expr}
    {direction : Direction} (answers : Yields (operand nested) before expr after)
    (moves : Moves before.cursor tokens after.cursor) (stands : after.cursor.rest = behind ++ rest)
    (some : tokens ≠ []) (writes : Token.WritesKey written shape)
    (directs : Token.Directs directed direction) (same : tokens ++ behind = written ++ directed) :
    tokens = written ∧ behind = directed ∧ expr = shape := by
  have front : before.cursor.kind = Token.frontKind written := by
    rw [← moves.frontKind some, ← Token.frontKind_append some, same, Token.frontKind_append]
    cases writes <;> simp
  obtain ⟨noPoint, noGroup, _⟩ := directs.noOperator 0
  cases writes with
  | @number token value is =>
    obtain ⟨rfl, passed, one⟩ := operand_cases_of_number (front.trans is) answers
    obtain rfl := moves.tokens_eq one
    obtain ⟨rfl, rfl⟩ := List.cons.inj same
    exact ⟨rfl, rfl, rfl⟩
  | @column owners last dotted isWritten starts =>
    rw [← front] at starts
    rw [List.append_assoc, List.singleton_append] at same
    rcases operand_cases_of_column starts answers with ⟨function, arguments, group, called⟩ |
      ⟨phrase, read, named⟩
    · -- behind its first token a name has a point or ends
      obtain rfl := moves.tokens_eq called
      have opens : Token.frontKind (arguments ++ behind) = .symbol .leftParen := by
        rw [Token.frontKind_append, group.frontKind]
        rintro rfl
        cases group
      cases owners with
      | nil =>
        have tail : arguments ++ behind = directed := (List.cons.inj same).2
        rw [tail] at opens
        exact absurd opens noGroup
      | cons part owners =>
        have tail : arguments ++ behind = part.2 :: (Phrase.joined owners ++ last :: directed) :=
          (List.cons.inj same).2
        rw [tail, Token.frontKind_cons, (dotted part List.mem_cons_self).2] at opens
        cases opens
    · obtain rfl := moves.tokens_eq named
      cases read with
      | @column owners' last' _ dotted' _ noPoint' shapes =>
        rw [Phrase.tokens, List.append_assoc, List.singleton_append] at same
        rcases Phrase.joined_cases dotted' same.symm noPoint with ⟨rfl, rfl, rfl⟩ | ⟨point, more, rfl⟩
        · refine ⟨rfl, rfl, ?_⟩
          cases shapes with
          | identifier => rfl
          | property => simp [Expr.column]
          | other _ noName => exact absurd rfl (noName _ _)
        · have behindPoint : behind = point :: (Phrase.joined more ++ last :: directed) := by
            simpa using same
          rw [stands, behindPoint] at noPoint'
          exact absurd (dotted (last', point) (by simp)).2 noPoint'
      | @columns owners' star _ dotted' isStar =>
        rw [Phrase.tokens, List.append_assoc, List.singleton_append] at same
        have noWord : star.kind.isWritten ≠ true := by
          simp [isStar, TokenKind.isWritten, TokenKind.isSymbol]
        rcases Phrase.joined_cases dotted' same.symm noPoint with ⟨_, rfl, _⟩ | ⟨point, more, rfl⟩
        · exact absurd isWritten noWord
        · exact absurd (dotted (star, point) (by simp)).1 noWord

end Operands

/-- Where an expression and what follows it are a key and a direction, the expression is the key. -/
theorem expression_of_key {before after : ExprState} {expr shape : Expr} {power : Nat}
    {tokens behind rest written directed : List Token} {direction : Direction}
    (answers : Yields (expressionOf power) before expr after)
    (moves : Moves before.cursor tokens after.cursor) (stands : after.cursor.rest = behind ++ rest)
    (writes : Token.WritesKey written shape) (directs : Token.Directs directed direction)
    (same : tokens ++ behind = written ++ directed) : expr = shape ∧ behind = directed := by
  obtain ⟨depth, answers⟩ := exists_expressionWith answers
  unfold expressionWith at answers
  rw [Step.yields_look_bind] at answers
  obtain ⟨first, between, one, operators⟩ := yields_bind.mp answers
  obtain ⟨others, more, outcome⟩ :=
    operators_read (reads_expressionWithin depth) (rounds_of_rounding operators)
  obtain ⟨phrases, _, (reads : ReadsAs power before phrases first between)⟩ :=
    operand_reads (reads_expressionWithin depth) one
  obtain rfl := moves.tokens_eq (reads.moves.trans more.moves)
  have behindOperand : between.cursor.rest = (Phrase.text others ++ behind) ++ rest := by
    rw [more.moves.rest, stands, List.append_assoc]
  rw [List.append_assoc] at same
  obtain ⟨_, directed, rfl⟩ := operand_of_key one reads.moves behindOperand
    (Phrase.text_ne_nil reads.shapes.ne_nil) writes directs same
  rcases outcome with ⟨rfl, rfl⟩ | ⟨some, holds, _⟩
  · exact ⟨rfl, directed⟩
  · have front := more.moves.frontKind (Phrase.text_ne_nil some)
    rw [← Token.frontKind_append (Phrase.text_ne_nil some) behind, directed] at front
    rw [← front] at holds
    exact absurd holds (directs.noOperator power).2.2

/-- An expression that has another shape than the bytes that it covers is a key. -/
theorem writesKey_of_shapes {phrases : List Phrase} {rest : List Token} {expr : Expr}
    (shapes : Phrase.Shapes phrases expr) (fit : Phrase.Fit phrases rest) :
    (∃ span, expr = .other span) ∨ Token.WritesKey (Phrase.text phrases) expr := by
  cases shapes with
  | number is => exact .inr (.number is)
  | identifier =>
    obtain ⟨⟨dotted, written, starts, _⟩, _⟩ := fit
    exact .inr (.column dotted written starts)
  | @property owners owner point last =>
    obtain ⟨⟨dotted, written, starts, _⟩, _⟩ := fit
    have key := Token.WritesKey.column dotted written starts
    rw [List.getLast?_concat] at key
    exact .inr (by simpa [Phrase.tokens, Expr.column] using key)
  | other => exact .inl ⟨_, rfl⟩

end ExprStep

/-- The key of a column, with the alias that is known for it. -/
def ColumnKey.ofName (aliases : String → Option String) (owner : Option Name) (name : Name)
    (direction : Direction) : ColumnKey :=
  let key : ColumnKey :=
    { owner := owner.map Name.value, name := name.value, direction, aliasName := none }
  { key with aliasName := aliases key.qualifiedName }

namespace Expr

/-- The key that an expression with a direction is in `GROUP BY`. -/
def columnKey? (aliases : String → Option String) (direction : Direction) : Expr → Option ColumnKey
  | .identifier name => some (.ofName aliases none name direction)
  | .property owner name => some (.ofName aliases (some owner) name direction)
  | _ => none

/-- The key that an expression with a direction is in `ORDER BY`. -/
def orderKey? (aliases : String → Option String) (direction : Direction) : Expr → Option OrderKey
  | .number (index + 1) => some (.position (index + 1) direction)
  | expr => (expr.columnKey? aliases direction).map .column

@[simp] theorem columnKey?_column (aliases : String → Option String) (direction : Direction)
    (owner : Option Token) (last : Token) :
    (column owner last).columnKey? aliases direction =
      some (.ofName aliases (owner.map .ofToken) (.ofToken last) direction) := by
  cases owner <;> rfl

@[simp] theorem orderKey?_column (aliases : String → Option String) (direction : Direction)
    (owner : Option Token) (last : Token) :
    (column owner last).orderKey? aliases direction =
      some (.column (.ofName aliases (owner.map .ofToken) (.ofToken last) direction)) := by
  cases owner <;> rfl

end Expr

end SelectRouting
