import SelectRouting.Proofs.OperandPassage

/-!
# What a reader of expressions passes

Every reader of an expression passes phrases, collects their qualifiers, and answers the shape of
the phrases (`ExprStep.reads_expressionOf`). The readers of the parts are described for any reader
of nested expressions that is described in this way; the depth of nesting is the induction. Where an
expression ends is said by its reader (`ExprStep.Consumes`).
-/

namespace SelectRouting

namespace ExprStep
open Scan Step Cursor ExprState

variable {before after : ExprState}

section Nested

/-- The reader passes the phrases of an expression whenever it answers. -/
def ReadsPhrases (reader : Nat → ExprStep Expr) : Prop :=
  ∀ {power : Nat} {before after : ExprState} {expr : Expr},
    Yields (reader power) before expr after → ∃ phrases, ReadsAs power before phrases expr after

variable {nested : Nat → ExprStep Expr} (sound : ReadsPhrases nested)
include sound

/-- The expressions of a list and the commas between them leave the open parentheses as they
are. -/
theorem list_reads
    (ran : Repeats (do let _ ← nested 0; skipSymbol .comma) before after) :
    ∃ phrases, Reads before phrases after ∧
      ∀ tail, Token.AreLexed (Phrase.text phrases) → Token.Closing 1 tail →
        Token.Closing 1 (Phrase.text phrases ++ tail) := by
  induction ran with
  | last answers =>
    obtain ⟨_, between, first, rest⟩ := yields_bind.mp answers
    obtain ⟨phrases, reads⟩ := sound first
    rcases skipSymbol_reads rest (by decide) (by simp) with ⟨asked, _⟩ | ⟨_, _, rfl⟩
    · cases asked
    · exact ⟨phrases, reads.toReads, fun tail lexed closing =>
        (reads.balanced lexed).append_closing closing⟩
  | again answers _ ih =>
    obtain ⟨_, between, first, rest⟩ := yields_bind.mp answers
    obtain ⟨phrases, reads⟩ := sound first
    obtain ⟨others, more, level⟩ := ih
    rcases skipSymbol_reads rest (by decide) (by simp) with ⟨_, comma, is, passed⟩ | ⟨asked, _⟩
    · refine ⟨phrases ++ [.mark comma] ++ others, (reads.toReads.trans passed).trans more, ?_⟩
      intro tail lexed closing
      rw [Phrase.text_append, Phrase.text_append] at lexed ⊢
      simp only [Phrase.text_cons, Phrase.text_nil, Phrase.tokens, List.append_assoc,
        List.append_nil, List.singleton_append]
      exact (reads.balanced lexed.left.left).append_closing
        (.other (by simp [is]) (by simp [is]) (level tail lexed.right closing))
    · cases asked

/-- A list of expressions in parentheses is a group. -/
theorem parenthesized_reads {answer : Unit}
    (answers : Yields (parenthesized nested) before answer after) :
    ∃ opening inner closing, closing.kind = .symbol .rightParen ∧
      ReadsBalanced before (.mark opening :: (inner ++ [.mark closing])) after := by
  unfold parenthesized at answers
  rw [Step.yields_look_bind] at answers
  obtain ⟨_, between, opened, rest⟩ := yields_bind.mp answers
  obtain ⟨opening, isOpening, first⟩ := expectSymbol_reads opened (by decide) (by simp)
  rw [Step.yields_look_bind] at rest
  simp only [yields_ite, not_yields_throw_bind, and_false, false_or] at rest
  obtain ⟨closed, further, second, rest⟩ := yields_bind.mp rest.2
  have group {inner : List Phrase} {closing : Token} {middle last : ExprState}
      (reads : Reads between inner middle) (isClosing : closing.kind = .symbol .rightParen)
      (passed : Reads middle [.mark closing] last)
      (level : ∀ tail, Token.AreLexed (Phrase.text inner) → Token.Closing 1 tail →
        Token.Closing 1 (Phrase.text inner ++ tail)) :
      ∃ opening inner closing, closing.kind = .symbol .rightParen ∧
        ReadsBalanced before (.mark opening :: (inner ++ [.mark closing])) last := by
    refine ⟨opening, inner, closing, isClosing, first.trans (reads.trans passed),
      fun lexed => .of_group ?_⟩
    rw [Phrase.text_cons, Phrase.text_append] at lexed ⊢
    exact .opens isOpening (level _ lexed.right.left (.last isClosing))
  rcases skipSymbol_reads second (by decide) (by simp) with
    ⟨rfl, closing, isClosing, passed⟩ | ⟨rfl, _, rfl⟩
  · obtain ⟨_, rfl⟩ := yields_pure.mp rest
    exact group (.refl between) isClosing passed fun _ _ closing => closing
  · rw [if_neg Bool.false_ne_true] at rest
    obtain ⟨_, last, ran, rest⟩ := yields_bind.mp rest
    obtain ⟨inner, reads, level⟩ := list_reads sound (repeats_of_whileTrue ran)
    obtain ⟨closing, isClosing, passed⟩ := expectSymbol_reads rest (by decide) (by simp)
    exact group reads isClosing passed level

/-- The branches of a conditional expression. -/
theorem branches_read
    (ran : Repeats (do
      if ← skipKeyword .WHEN then
        let _ ← nested 0
        expectKeyword .THEN
        let _ ← nested 0
        return true
      else return false : ExprStep Bool) before after) :
    ∃ phrases, ReadsBalanced before phrases after := by
  induction ran with
  | last answers =>
    obtain ⟨found, between, first, rest⟩ := yields_bind.mp answers
    rcases skipKeyword_reads first (by decide) with ⟨rfl, _⟩ | ⟨rfl, _, rfl⟩
    · simp only [if_pos, yields_bind, yields_pure] at rest
      obtain ⟨_, _, _, _, _, _, _, _, _, asked, _⟩ := rest
      cases asked
    · obtain ⟨_, rfl⟩ := yields_pure.mp rest
      exact ⟨[], .refl _⟩
  | again answers _ ih =>
    obtain ⟨others, more⟩ := ih
    obtain ⟨found, between, first, rest⟩ := yields_bind.mp answers
    rcases skipKeyword_reads first (by decide) with ⟨rfl, word, _, one⟩ | ⟨rfl, _, rfl⟩
    · simp only [if_pos, yields_bind, yields_pure] at rest
      obtain ⟨_, _, asked, _, _, expected, _, _, answered, _, rfl⟩ := rest
      obtain ⟨two, second⟩ := sound asked
      obtain ⟨token, _, three⟩ := expectKeyword_reads expected (by decide)
      obtain ⟨four, fourth⟩ := sound answered
      exact ⟨_, (((one.trans second.toReadsBalanced).trans three).trans
        fourth.toReadsBalanced).trans more⟩
    · cases (yields_pure.mp rest).1

/-- A conditional expression is its words and the expressions between them. -/
theorem conditional_reads {answer : Unit}
    (answers : Yields (conditional nested) before answer after) :
    ∃ opening inner closing, closing.kind = .keyword .END ∧
      ReadsBalanced before (.mark opening :: (inner ++ [.mark closing])) after := by
  unfold conditional at answers
  obtain ⟨_, between, opened, rest⟩ := yields_bind.mp answers
  obtain ⟨opening, isOpening, first⟩ := expectKeyword_reads opened (by decide)
  rw [Step.yields_look_bind] at rest
  obtain ⟨subject, further, second, rest⟩ : ∃ phrases further,
      ReadsBalanced between phrases further ∧ Yields (do
        unless ← look (·.atKeyword? [.WHEN]) do fail (.keyword .WHEN)
        Step.whileTrue do
          if ← skipKeyword .WHEN then
            let _ ← nested 0
            expectKeyword .THEN
            let _ ← nested 0
            return true
          else return false
        if ← skipKeyword .ELSE then
          let _ ← nested 0
        expectKeyword .END : ExprStep Unit) further answer after := by
    rcases yields_ite.mp rest with ⟨_, rest⟩ | ⟨_, rest⟩
    · exact ⟨[], between, .refl _, rest⟩
    · obtain ⟨_, further, asked, rest⟩ := yields_bind.mp rest
      obtain ⟨phrases, reads⟩ := sound asked
      exact ⟨phrases, further, reads.toReadsBalanced, rest⟩
  rw [Step.yields_look_bind] at rest
  simp only [yields_ite, not_yields_fail_bind, and_false, or_false] at rest
  obtain ⟨_, last, ran, rest⟩ := yields_bind.mp rest.2
  obtain ⟨branches, third⟩ := branches_read sound (repeats_of_whileTrue ran)
  obtain ⟨otherwise, behind, fourth, rest⟩ : ∃ phrases behind,
      ReadsBalanced last phrases behind ∧
        Yields (liftM (expectKeyword .END) : ExprStep Unit) behind answer after := by
    obtain ⟨found, middle, asked, rest⟩ := yields_bind.mp rest
    rcases skipKeyword_reads asked (by decide) with ⟨rfl, word, _, one⟩ | ⟨rfl, _, rfl⟩
    · obtain ⟨_, behind, asked, rest⟩ := yields_bind.mp rest
      obtain ⟨phrases, two⟩ := sound asked
      exact ⟨_, behind, one.trans two.toReadsBalanced, rest⟩
    · exact ⟨[], _, .refl _, rest⟩
  obtain ⟨closing, isClosing, fifth⟩ := expectKeyword_reads rest (by decide)
  refine ⟨opening, subject ++ (branches ++ otherwise), closing, isClosing, ?_⟩
  rw [List.append_assoc, List.append_assoc]
  exact first.trans (second.trans (third.trans (fourth.trans fifth)))

/-- An operand is a literal, a variable, a name or a call, which is one phrase, or it stands in
parentheses or between the words of a conditional. -/
theorem primary_cases {power : Nat} {expr : Expr}
    (answers : Yields (primary nested) before expr after) :
    (∃ phrase, ReadsAs power before [phrase] expr after) ∨
      ∃ opening inner closing,
        (closing.kind = .symbol .rightParen ∨ closing.kind = .keyword .END) ∧
        ReadsBalanced before (.mark opening :: (inner ++ [.mark closing])) after ∧
        expr = .other ⟨before.cursor.start, after.cursor.previous.stop⟩ := by
  unfold primary at answers
  rw [Step.yields_look_bind] at answers
  simp only [id_eq, cursor_expr] at answers
  rw [show before.cursor.current.kind = before.cursor.kind from rfl] at answers
  split at answers
  · next value named => exact .inl (number_reads named answers)
  · next named => exact .inl (literal_reads (by simp [named, Expr.isLiteral]) answers)
  · next named => exact .inl (literal_reads (by simp [named, Expr.isLiteral]) answers)
  · next named => exact .inl (literal_reads (by simp [named, Expr.isLiteral]) answers)
  · next named => exact .inl (literal_reads (by simp [named, Expr.isLiteral]) answers)
  · next named => exact .inl (literal_reads (by simp [named, Expr.isLiteral]) answers)
  · next named => exact .inl (literal_reads (by simp [named, Expr.isLiteral]) answers)
  · exact .inl (placeholder_reads answers)
  · next named => exact .inl (variable_reads (.inl named) answers)
  · next named => exact .inl (variable_reads (.inr named) answers)
  · obtain ⟨_, _, ran, spanned⟩ := yields_bind.mp answers
    obtain ⟨rfl, rfl⟩ := yields_spanningFrom.mp spanned
    obtain ⟨opening, inner, closing, isClosing, reads⟩ := parenthesized_reads sound ran
    exact .inr ⟨opening, inner, closing, .inl isClosing, reads, rfl⟩
  · exact absurd answers not_yields_throw
  · obtain ⟨_, _, ran, spanned⟩ := yields_bind.mp answers
    obtain ⟨rfl, rfl⟩ := yields_spanningFrom.mp spanned
    obtain ⟨opening, inner, closing, isClosing, reads⟩ := conditional_reads sound ran
    exact .inr ⟨opening, inner, closing, .inr isClosing, reads, rfl⟩
  · next named => exact .inl (name_reads answers (by simp [named, Expr.startsColumn]))
  · next word named =>
    rcases yields_ite.mp answers with ⟨called, answers⟩ | ⟨_, answers⟩
    · rw [Bool.and_eq_true, beq_iff_eq] at called
      obtain ⟨function, arguments, _, reads⟩ := call_reads named called.1 called.2 answers
      exact .inl ⟨.call function arguments, reads⟩
    · rcases yields_ite.mp answers with ⟨column, answers⟩ | ⟨_, failed⟩
      · exact .inl (name_reads answers (by simp [named, Expr.startsColumn, column]))
      · exact absurd failed Step.not_yields_fail
  · exact absurd answers Step.not_yields_fail

/-- The phrases of an operand have its shape. -/
theorem primary_reads {power : Nat} {expr : Expr}
    (answers : Yields (primary nested) before expr after) :
    ∃ phrases, Phrase.Alone phrases ∧ ReadsAs power before phrases expr after := by
  rcases primary_cases sound answers with ⟨phrase, reads⟩ | ⟨opening, inner, closing, _, reads, rfl⟩
  · exact ⟨[phrase], .single phrase, reads⟩
  · exact reads.marked (by simp)

/-- An operand with the operators in front of it. -/
theorem operand_reads {power : Nat} {expr : Expr}
    (answers : Yields (operand nested) before expr after) :
    ∃ phrases, Phrase.Alone phrases ∧ ReadsAs power before phrases expr after := by
  unfold operand at answers
  rw [Step.yields_look_bind, Step.yields_look_bind] at answers
  split at answers
  · next binding binds =>
    rw [Step.yields_advance_bind] at answers
    obtain ⟨_, _, ran, spanned⟩ := yields_bind.mp answers
    obtain ⟨rfl, rfl⟩ := yields_spanningFrom.mp spanned
    obtain ⟨phrases, reads⟩ := sound ran
    obtain ⟨syntactic, plain⟩ := Expr.unaryPower_spec binds
    obtain ⟨token, _, _, first⟩ := reads_advance syntactic plain
    exact (first.trans reads.toReadsBalanced).marked reads.shapes.ne_nil
  · exact primary_reads sound answers

omit sound in
/-- Behind a `NOT` that belongs to an operator the operator stands. -/
theorem negation_reads {found : Bool} (operator : (Expr.binaryPower? before.cursor.kind).isSome = true)
    (bound : atLoneNot before.cursor = false)
    (answers : Yields (liftM (skipKeyword .NOT) : ExprStep Bool) before found after) :
    ∃ phrases, ReadsBalanced before phrases after ∧
      ∃ binding, Expr.binaryPower? after.cursor.kind = some binding := by
  rcases skipKeyword_reads answers (by decide) with ⟨_, word, is, passed⟩ | ⟨_, _, rfl⟩
  · refine ⟨_, passed, ?_⟩
    have next : (before.cursor.peek 1).kind = after.cursor.kind := by
      have moves := passed.moves
      simp [Cursor.kind, Cursor.current, Cursor.peek, moves.text, moves.rest, Phrase.tokens]
    have stands : before.cursor.kind = .keyword .NOT :=
      (passed.moves.frontKind (by simp [Phrase.tokens])).symm.trans is
    unfold atLoneNot at bound
    rw [atKeyword?_iff.mpr ⟨.NOT, by simp, stands⟩, Bool.true_and, next] at bound
    split at bound
    · next named => exact ⟨_, by rw [named]; rfl⟩
    · next named => exact ⟨_, by rw [named]; rfl⟩
    · next named => exact ⟨_, by rw [named]; rfl⟩
    · cases bound
  · exact ⟨[], .refl _, Option.isSome_iff_exists.mp operator⟩

/-- An operator with what belongs to it, up to the end of its right operand. -/
theorem operation_reads {power : Nat} {answer : Unit}
    (operator : (Expr.binaryPower? before.cursor.kind).isSome = true)
    (bound : atLoneNot before.cursor = false)
    (answers : Yields (operation nested power) before answer after) :
    ∃ phrases, phrases ≠ [] ∧ ReadsBalanced before phrases after := by
  unfold operation at answers
  obtain ⟨negated, between, skipped, rest⟩ := yields_bind.mp answers
  rw [Step.yields_look_bind] at rest
  obtain ⟨one, first, binding, binds⟩ := negation_reads operator bound skipped
  obtain ⟨syntactic, plain⟩ := Expr.binaryPower_spec binds
  obtain ⟨token, is, _, second⟩ := reads_advance syntactic plain
  have upTo := first.trans second
  split at rest
  · rw [Step.yields_advance_bind] at rest
    obtain ⟨_, middle, skipped, rest⟩ := yields_bind.mp rest
    obtain ⟨found, last, tested, rest⟩ := yields_bind.mp rest
    obtain ⟨two, third⟩ : ∃ phrases, ReadsBalanced _ phrases middle := by
      rcases skipKeyword_reads skipped (by decide) with ⟨_, word, _, passed⟩ | ⟨_, _, rfl⟩
      · exact ⟨_, passed⟩
      · exact ⟨[], .refl _⟩
    rcases skipAnyKeyword_reads tested (by decide) with ⟨rfl, _, _, last, _, passed⟩ | ⟨rfl, _, rfl⟩
    · obtain ⟨_, rfl⟩ := yields_pure.mp rest
      exact ⟨_, by simp, (upTo.trans third).trans passed⟩
    · exact absurd rest Step.not_yields_fail
  · rw [Step.yields_advance_bind, Step.yields_look_bind] at rest
    simp only [yields_ite, not_yields_fail_bind, and_false, or_false] at rest
    obtain ⟨opening, inner, closing, _, reads⟩ := parenthesized_reads sound rest.2
    exact ⟨_, by simp, upTo.trans reads⟩
  · rw [Step.yields_advance_bind] at rest
    obtain ⟨_, _, lower, rest⟩ := yields_bind.mp rest
    obtain ⟨_, _, joined, rest⟩ := yields_bind.mp rest
    obtain ⟨_, _, upper, rest⟩ := yields_bind.mp rest
    obtain ⟨_, rfl⟩ := yields_pure.mp rest
    obtain ⟨two, third⟩ := sound lower
    obtain ⟨word, _, fourth⟩ := expectKeyword_reads joined (by decide)
    obtain ⟨three, fifth⟩ := sound upper
    exact ⟨_, by simp,
      ((upTo.trans third.toReadsBalanced).trans fourth).trans fifth.toReadsBalanced⟩
  · rw [Step.yields_advance_bind] at rest
    obtain ⟨_, middle, pattern, rest⟩ := yields_bind.mp rest
    obtain ⟨two, third⟩ := sound pattern
    rw [Step.yields_look_bind] at rest
    rcases yields_ite.mp rest with ⟨escapes, rest⟩ | ⟨_, rest⟩
    · rw [Step.yields_advance_bind] at rest
      obtain ⟨_, _, escape, rest⟩ := yields_bind.mp rest
      obtain ⟨_, rfl⟩ := yields_pure.mp rest
      obtain ⟨three, fifth⟩ := sound escape
      obtain ⟨word, fourth⟩ := word_reads escapes
      exact ⟨_, by simp,
        ((upTo.trans third.toReadsBalanced).trans fourth).trans fifth.toReadsBalanced⟩
    · obtain ⟨_, rfl⟩ := yields_pure.mp rest
      exact ⟨_, by simp, upTo.trans third.toReadsBalanced⟩
  · rw [Step.yields_advance_bind] at rest
    obtain ⟨_, _, right, rest⟩ := yields_bind.mp rest
    obtain ⟨_, rfl⟩ := yields_pure.mp rest
    obtain ⟨two, third⟩ := sound right
    exact ⟨_, by simp, upTo.trans third.toReadsBalanced⟩

/-- One more operator of an expression: none that binds with `power`, or one with what belongs to
it. -/
theorem expressionRound_cases {power start : Nat} {left : Expr} {answer : Round Expr Expr}
    (answers : Yields (expressionRound nested power start left) before answer after) :
    (answer = .done left ∧ before = after) ∨
      ∃ phrases, phrases ≠ [] ∧ ReadsBalanced before phrases after ∧
        Expr.Holds power before.cursor.kind ∧
        answer = .next (.other ⟨start, after.cursor.previous.stop⟩) := by
  unfold expressionRound at answers
  rw [Step.yields_look_bind] at answers
  simp only [id_eq, cursor_expr] at answers
  split at answers
  · next _ binding casts =>
    rcases yields_ite.mp answers with ⟨_, ended⟩ | ⟨binds, more⟩
    · obtain ⟨rfl, rfl⟩ := yields_pure.mp ended
      exact .inl ⟨rfl, rfl⟩
    · obtain ⟨_, _, ran, rest⟩ := yields_bind.mp more
      simp only [yields_bind, yields_spanningFrom, yields_pure] at rest
      obtain ⟨_, _, ⟨rfl, rfl⟩, rfl, rfl⟩ := rest
      obtain ⟨sign, type, arguments, reads, balanced, _⟩ := cast_reads ran
      exact .inr ⟨_, by simp, ⟨reads, fun _ => by simpa using balanced⟩,
        .inl ⟨binding, casts, Nat.not_lt.mp binds⟩, rfl⟩
  · next binding _ binds =>
    rcases yields_ite.mp answers with ⟨_, ended⟩ | ⟨goes, more⟩
    · obtain ⟨rfl, rfl⟩ := yields_pure.mp ended
      exact .inl ⟨rfl, rfl⟩
    · obtain ⟨_, _, ran, rest⟩ := yields_bind.mp more
      simp only [yields_bind, yields_spanningFrom, yields_pure] at rest
      obtain ⟨_, _, ⟨rfl, rfl⟩, rfl, rfl⟩ := rest
      rw [Bool.or_eq_true, decide_eq_true_eq, not_or, Nat.not_lt, Bool.not_eq_true] at goes
      obtain ⟨phrases, some, reads⟩ := operation_reads sound (by simp [binds]) goes.2 ran
      exact .inr ⟨phrases, some, reads, .inr ⟨binding, binds, goes.1⟩, rfl⟩
  · obtain ⟨rfl, rfl⟩ := yields_pure.mp answers
    exact .inl ⟨rfl, rfl⟩

/-- The operators behind an operand: none, or some that span the expression from its start. -/
theorem operators_read {power start : Nat} {left expr : Expr}
    (ran : Rounds (expressionRound nested power start) left before expr after) :
    ∃ phrases, ReadsBalanced before phrases after ∧
      ((phrases = [] ∧ expr = left) ∨ (phrases ≠ [] ∧ Expr.Holds power before.cursor.kind ∧
        expr = .other ⟨start, after.cursor.previous.stop⟩)) := by
  induction ran with
  | done answers =>
    rcases expressionRound_cases sound answers with ⟨same, rfl⟩ | ⟨_, _, _, _, next⟩
    · cases same
      exact ⟨[], .refl _, .inl ⟨rfl, rfl⟩⟩
    · cases next
  | next answers _ ih =>
    rcases expressionRound_cases sound answers with ⟨ended, _⟩ | ⟨phrases, some, reads, holds, next⟩
    · cases ended
    · cases next
      obtain ⟨others, more, shape⟩ := ih
      refine ⟨phrases ++ others, reads.trans more, .inr ⟨by simp [some], holds, ?_⟩⟩
      rcases shape with ⟨rfl, same⟩ | ⟨_, _, shape⟩
      · have last := more.moves.previous
        simp only [Phrase.text_nil, List.getLast?_nil, Option.map_none, Option.getD_none] at last
        rw [last]
        exact same
      · exact shape

/-- An expression is an operand and the operators behind it. -/
theorem expressionWith_reads : ReadsPhrases (expressionWith nested) := by
  intro power before after expr answers
  unfold expressionWith at answers
  rw [Step.yields_look_bind] at answers
  obtain ⟨first, between, operand, rest⟩ := yields_bind.mp answers
  obtain ⟨phrases, alone, (reads : ReadsAs power before phrases first between)⟩ :=
    operand_reads sound operand
  obtain ⟨others, more, shape⟩ := operators_read sound (rounds_of_rounding rest)
  rcases shape with ⟨rfl, rfl⟩ | ⟨some, holds, rfl⟩
  · refine ⟨phrases, ?_, reads.shapes, alone.continues⟩
    simpa using reads.toReadsBalanced.trans more
  · refine ⟨phrases ++ others, (reads.toReadsBalanced.trans more).spanning ?_ ?_⟩
    · have one := List.length_pos_iff.mpr reads.shapes.ne_nil
      have two := List.length_pos_iff.mpr some
      rw [List.length_append]
      omega
    · intro owners last rest same
      obtain ⟨phrase, tail, rfl⟩ := List.exists_cons_of_ne_nil reads.shapes.ne_nil
      obtain ⟨rfl, rfl⟩ := List.cons.inj same
      rw [alone owners last tail rfl]
      change others = [] ∨ Expr.Holds power (Token.frontKind (Phrase.text others))
      rw [more.moves.frontKind (Phrase.text_ne_nil some)]
      exact .inr holds

end Nested

/-- However deep expressions are nested, they are read as phrases. -/
theorem reads_expressionWithin (depth : Nat) : ReadsPhrases (expressionWithin depth) := by
  induction depth with
  | zero => exact fun answers => absurd answers Step.not_yields_fail
  | succ depth ih => exact expressionWith_reads ih

/-- An expression is read as phrases. -/
theorem reads_expressionOf : ReadsPhrases expressionOf := by
  intro power before after expr answers
  unfold expressionOf at answers
  rw [Step.yields_look_bind] at answers
  exact reads_expressionWithin _ answers

/-- The reader of expressions whose operators bind with `power` or more passes exactly the tokens,
where `rest` stands behind them. -/
def Consumes (power : Nat) (tokens rest : List Token) : Prop :=
  ∃ before expr after, Yields (expressionOf power) before expr after ∧
    before.cursor.rest = tokens ++ rest ∧ after.cursor.rest = rest

/-- The phrases of an expression are what its reader passes. -/
theorem Consumes.of_yields {power : Nat} {phrases : List Phrase} {expr : Expr}
    (answers : Yields (expressionOf power) before expr after)
    (reads : ReadsAs power before phrases expr after) :
    Consumes power (Phrase.text phrases) after.cursor.rest :=
  ⟨before, expr, after, answers, reads.moves.rest, rfl⟩

end ExprStep

end SelectRouting
