import SelectRouting.Proofs.ExprPassage
import SelectRouting.Proofs.FailingRuns

/-!
# Expressions that may fail

Each reader of a part of an expression is orderly, and so is the reader of expressions, however deep it
stops. A token that is passed without a look at its kind is known not to be a placeholder from the way
that led to it.
-/

namespace SelectRouting.ExprStep
open Scan Step Cursor

section Names

theorem qualify_orderly (owner : Name) : Orderly (qualify owner) :=
  ⟨fun _ => .of_yields rfl (.refl _)⟩

theorem spanningFrom_orderly (start : Nat) : Orderly (spanningFrom start) :=
  .look

theorem takeName_orderly {origin : Cursor} {before : ExprState}
    (uncounted : before.cursor.kind ≠ .symbol .question) : OrderlyAt origin takeName before := by
  obtain ⟨passed, passes⟩ := exists_passes_advance uncounted
  exact .of_yields (yields_takeName.mpr ⟨rfl, rfl⟩) passes

theorem argumentsRound_orderly (depth : Nat) : Orderly (argumentsRound depth) := by
  unfold argumentsRound
  refine .look_bind fun {before} lexed => ?_
  dsimp only [id]
  split
  · next opening =>
    split
    · next opens => exact .throw_bind (blames_subquery opening opens)
    · exact .passing (opening.trans_ne (by simp)) lexed (.pure _)
  · next closing => exact .passing (closing.trans_ne (by simp)) lexed (.pure _)
  · exact (Orderly.scan parameter_orderly |>.bind fun _ => .pure _).runs lexed
  · next named =>
    refine (takeName_orderly (named.trans_ne (by simp))).andThen lexed fun name => Orderly.look.bind fun _ => ?_
    exact .ite ((qualify_orderly name).bind fun _ => .pure _) (.pure _)
  · exact Orderly.fail.runs lexed
  · next uncounted _ _ => exact .passing uncounted lexed (.pure _)

theorem arguments_orderly : Orderly arguments :=
  .rounding argumentsRound_orderly 0

theorem nameRound_orderly (start : Nat) (parts : Option Name × Name) :
    Orderly (nameRound start parts) := by
  obtain ⟨owner, name⟩ := parts
  unfold nameRound
  refine (Orderly.scan (skipSymbol_orderly (by simp))).bind fun _ => .ite ?_ ?_
  · refine (Orderly.scan (skipSymbol_orderly (by simp))).bind fun _ => .ite ?_ ?_
    · exact (qualify_orderly name).bind fun _ => (spanningFrom_orderly start).bind fun _ => .pure _
    · exact .inside fun lexed uncounted => (takeName_orderly uncounted).andThen lexed fun _ => .pure _
  · split
    · exact (qualify_orderly _).bind fun _ => .pure _
    · exact .pure _

theorem name_orderly {before : ExprState} (lexed : Token.AreLexed before.cursor.rest)
    (uncounted : before.cursor.kind ≠ .symbol .question) : OrderlyAt before.cursor name before := by
  refine .bind (Orderly.look.runs lexed) fun looked _ => ?_
  obtain ⟨rfl, rfl⟩ := yields_look.mp looked
  refine (takeName_orderly uncounted).andThen lexed fun first => Orderly.look.bind fun _ => .ite ?_ ?_
  · exact arguments_orderly.bind fun _ => spanningFrom_orderly _
  · exact .rounding (nameRound_orderly _) _

theorem parameterName_orderly {before : ExprState} (lexed : Token.AreLexed before.cursor.rest)
    (uncounted : before.cursor.kind ≠ .symbol .question) :
    OrderlyAt before.cursor parameterName before := by
  refine .passing uncounted lexed ((Orderly.scan (skipSymbol_orderly (by simp))).bind fun _ => ?_)
  exact .inside fun _ uncounted => .scan (advance_orderly uncounted)

theorem cast_orderly : Orderly cast := by
  refine (Orderly.scan (expectSymbol_orderly (by simp))).bind fun _ => .inside fun lexed uncounted => ?_
  exact .passing uncounted lexed ((Orderly.scan group_orderly).bind fun _ => .pure _)

end Names

section Nested
variable {nested : Nat → ExprStep Expr} (inner : ∀ power, Orderly (nested power))
include inner

/-- A subquery is blamed on the parenthesis before it, which has been passed by then. -/
theorem parenthesized_orderly : Orderly (parenthesized nested) := by
  have listed : Orderly (do
      unless ← skipSymbol .rightParen do
        Step.whileTrue do
          let _ ← nested 0
          skipSymbol .comma
        expectSymbol .rightParen : ExprStep Unit) := by
    refine (Orderly.scan (skipSymbol_orderly (by simp))).bind fun _ => .ite (.pure _) ?_
    refine (Orderly.whileTrue ?_).bind fun _ => .scan (expectSymbol_orderly (by simp))
    exact (inner 0).bind fun _ => .scan (skipSymbol_orderly (by simp))
  unfold parenthesized
  refine .look_bind fun {before} lexed => ?_
  refine .bind ((Orderly.scan (expectSymbol_orderly (by simp))).runs lexed) fun {_ between _} opened passes => ?_
  refine .bind (.since (Orderly.look.runs (passes.lexed lexed)) passes.toMoves) fun looked _ => ?_
  obtain ⟨rfl, rfl⟩ := yields_look.mp looked
  split
  · next selects =>
    obtain ⟨inside, scanned, rfl⟩ := yields_onCursor.mp opened
    obtain ⟨token, opening, first⟩ := expectSymbol_passes scanned (by simp)
    obtain ⟨word, member, named⟩ := atKeyword?_iff.mp selects
    refine .throw_bind (blames_subquery ?_ (opensSubquery_iff.mpr ?_))
    · exact (congrArg Token.kind (current_of_cons first.rest)).trans opening
    · rw [first.rest, List.singleton_append, List.tail_cons, ← kind_eq_frontKind,
        ← List.mem_singleton.mp member]
      exact named
  · exact (listed.runs (passes.lexed lexed)).since passes.toMoves

theorem conditional_orderly : Orderly (conditional nested) := by
  unfold conditional
  have ended : Orderly (liftM (expectKeyword .END) : ExprStep Unit) := .scan (expectKeyword_orderly _)
  have branches : Orderly (do
      unless ← look (·.atKeyword? [.WHEN]) do fail (.keyword .WHEN)
      Step.whileTrue do
        if ← skipKeyword .WHEN then
          let _ ← nested 0
          expectKeyword .THEN
          let _ ← nested 0
          return true
        else return false
      if ← skipKeyword .ELSE then
        let _ ← nested 0
      expectKeyword .END : ExprStep Unit) := by
    refine Orderly.look.bind fun _ => .ite ?_ .fail_bind
    refine (Orderly.whileTrue ?_).bind fun _ => ?_
    · refine (Orderly.scan (skipKeyword_orderly _)).bind fun _ => .ite ?_ (.pure _)
      exact (inner 0).bind fun _ => (Orderly.scan (expectKeyword_orderly _)).bind fun _ =>
        (inner 0).bind fun _ => .pure _
    · exact (Orderly.scan (skipKeyword_orderly _)).bind fun _ =>
        .ite ((inner 0).bind fun _ => ended) ended
  refine (Orderly.scan (expectKeyword_orderly _)).bind fun _ => ?_
  exact Orderly.look.bind fun _ => .ite branches ((inner 0).bind fun _ => branches)

theorem primary_orderly : Orderly (primary nested) := by
  unfold primary
  refine .look_bind fun {before} lexed => ?_
  dsimp only [id]
  have passed (expr : Expr) (uncounted : before.cursor.kind ≠ .symbol .question) :
      OrderlyAt before.cursor (do advance; return expr : ExprStep Expr) before :=
    .passing uncounted lexed (.pure _)
  split
  · next is => exact passed _ (is.trans_ne (by simp))
  · next is => exact passed _ (is.trans_ne (by simp))
  · next is => exact passed _ (is.trans_ne (by simp))
  · next is => exact passed _ (is.trans_ne (by simp))
  · next is => exact passed _ (is.trans_ne (by simp))
  · next is => exact passed _ (is.trans_ne (by simp))
  · next is => exact passed _ (is.trans_ne (by simp))
  · exact ((Orderly.scan parameter_orderly).bind fun _ => .pure _).runs lexed
  · next is =>
    exact (parameterName_orderly lexed (is.trans_ne (by simp))).andThen lexed fun _ =>
      spanningFrom_orderly _
  · next is =>
    exact (parameterName_orderly lexed (is.trans_ne (by simp))).andThen lexed fun _ =>
      spanningFrom_orderly _
  · exact ((parenthesized_orderly inner).bind fun _ => spanningFrom_orderly _).runs lexed
  · next is => exact .throw (blames_current fun _ _ => .existence is)
  · exact ((conditional_orderly inner).bind fun _ => spanningFrom_orderly _).runs lexed
  · next is => exact name_orderly lexed (is.trans_ne (by simp))
  · next is =>
    split
    · exact .passing (is.trans_ne (by simp)) lexed
        (arguments_orderly.bind fun _ => spanningFrom_orderly _)
    · split
      · exact name_orderly lexed (is.trans_ne (by simp))
      · exact Orderly.fail.runs lexed
  · exact Orderly.fail.runs lexed

theorem operand_orderly : Orderly (operand nested) := by
  unfold operand
  refine Orderly.look.bind fun start => .look_bind fun {before} lexed => ?_
  split
  · next binds =>
    have plain := (Expr.unaryPower_spec binds).2 .question (by simp)
    exact .passing plain lexed ((inner _).bind fun _ => spanningFrom_orderly _)
  · exact (primary_orderly inner).runs lexed

/-- Behind the word `NOT` that belongs to an operator this operator follows. -/
theorem operation_orderly {power leftPower : Nat} {before : ExprState}
    (lexed : Token.AreLexed before.cursor.rest)
    (binds : Expr.binaryPower? before.cursor.kind = some leftPower)
    (tied : atLoneNot before.cursor = false) :
    OrderlyAt before.cursor (operation nested power) before := by
  unfold operation
  have operand : Orderly (do let _ ← nested power : ExprStep Unit) := (inner power).bind fun _ => .pure _
  refine .bind ((Orderly.scan (skipKeyword_orderly _)).runs lexed) fun {_ between _} skipped passes => ?_
  obtain ⟨_, _, _, operator⟩ := negation_reads (Option.isSome_iff_exists.mpr ⟨_, binds⟩) tied skipped
  have uncounted := (Expr.binaryPower_spec operator).2 .question (by simp)
  refine .since ?_ passes.toMoves
  have lexed := passes.lexed lexed
  refine .bind (Orderly.look.runs lexed) fun looked _ => ?_
  obtain ⟨rfl, rfl⟩ := yields_look.mp looked
  split
  · refine .passing uncounted lexed ((Orderly.scan (skipKeyword_orderly _)).bind fun _ => ?_)
    exact (Orderly.scan (skipAnyKeyword_orderly _)).bind fun _ => .ite (.pure _) .fail
  · refine .passing uncounted lexed (Orderly.look.bind fun _ => ?_)
    exact .ite (parenthesized_orderly inner) .fail_bind
  · exact .passing uncounted lexed ((inner _).bind fun _ =>
      (Orderly.scan (expectKeyword_orderly _)).bind fun _ => operand)
  · refine .passing uncounted lexed ((inner _).bind fun _ => .look_bind fun lexed => ?_)
    split
    · next escapes => exact .passing (uncounted_of_word lexed escapes (by decide)) lexed operand
    · exact .pure _
  · exact .passing uncounted lexed operand

theorem expressionRound_orderly (power start : Nat) (left : Expr) :
    Orderly (expressionRound nested power start left) := by
  unfold expressionRound
  refine .look_bind fun {before} lexed => ?_
  dsimp only [id]
  have spanning : Orderly (do return .next (← spanningFrom start) : ExprStep (Round Expr Expr)) :=
    (spanningFrom_orderly start).bind fun _ => .pure _
  split
  · split
    · exact .pure _
    · exact (cast_orderly.bind fun _ => spanning).runs lexed
  · next binds =>
    split
    · exact .pure _
    · next goesOn =>
      have tied : atLoneNot before.cursor = false := by
        simp only [Bool.or_eq_true, not_or] at goesOn
        exact Bool.eq_false_iff.mpr goesOn.2
      exact (operation_orderly inner lexed binds tied).andThen lexed fun _ => spanning
  · exact .pure _

theorem expressionWith_orderly (power : Nat) : Orderly (expressionWith nested power) :=
  Orderly.look.bind fun start => (operand_orderly inner).bind fun _ =>
    .rounding (expressionRound_orderly inner power start) _

end Nested

/-- By induction on how deep expressions are nested in each other. -/
theorem expressionWithin_orderly (depth power : Nat) : Orderly (expressionWithin depth power) := by
  induction depth generalizing power with
  | zero => exact .fail
  | succ depth ih => exact expressionWith_orderly ih power

theorem expressionOf_orderly (power : Nat) : Orderly (expressionOf power) :=
  Orderly.look.bind fun left => expressionWithin_orderly (left.length + 1) power

end SelectRouting.ExprStep
