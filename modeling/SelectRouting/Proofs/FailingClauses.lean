import SelectRouting.Proofs.FailingExpressions
import SelectRouting.Proofs.ProjectionPassage

/-!
# Clauses that may fail

The readers of the clauses are orderly as far as no table is read. A table named with its schema is
passed without a look at it, so the tables of a query are left out here.
-/

namespace SelectRouting

namespace Scan
open Step Cursor

theorem limitValue_orderly : Orderly limitValue := by
  unfold limitValue
  refine look_bind_orderly fun {before} lexed => ?_
  split
  · next is => exact (advance_orderly (is.trans_ne (by simp))).andThen lexed fun _ => .pure _
  · exact (parameter_orderly.bind fun _ => .pure _).runs lexed
  · exact (fail_orderly _).runs lexed

/-- An operand that does not stand here is missed here, and nothing is passed. -/
theorem limitValue_unmoved {before after : Cursor} {error : ParseError}
    (fails : Fails limitValue before error after) : after = before := by
  unfold limitValue at fails
  rw [fails_look_bind] at fails
  split at fails
  · cases fails
  · obtain failed | ⟨_, _, _, ended⟩ := fails_bind.mp fails
    · exact (fails_parameter.mp failed).2.2
    · exact absurd ended not_fails_pure
  · exact (fails_fail.mp fails).2

theorem limitClause_orderly : Orderly limitClause := by
  unfold limitClause
  refine (skipKeyword_orderly _).bind fun _ => .ite (limitValue_orderly.bind fun _ => ?_) (.pure _)
  refine (skipSymbol_orderly (by simp)).bind fun _ => .ite (limitValue_orderly.bind fun _ => .pure _) ?_
  exact (skipKeyword_orderly _).bind fun _ => .ite (limitValue_orderly.bind fun _ => .pure _) (.pure _)

theorem skipWord_orderly {word : String}
    (letter : (word.toList.head?.map Char.toLower).any Char.isAlpha = true) :
    Orderly (skipWhen (·.atWord? word)) :=
  skipWhen_orderly fun lexed stands => uncounted_of_word lexed stands letter

theorem expectWord_orderly {word : String}
    (letter : (word.toList.head?.map Char.toLower).any Char.isAlpha = true) :
    Orderly (expectWord word) :=
  (skipWord_orderly letter).bind fun _ => .ite (.pure _) (fail_orderly _)

theorem lockingRead_orderly : Orderly lockingRead := by
  unfold lockingRead
  refine (skipKeyword_orderly _).bind fun _ => .ite (expectWord_orderly (by decide)) ?_
  refine (skipKeyword_orderly _).bind fun _ => .ite ?_ (.pure _)
  exact (expectWord_orderly (by decide)).bind fun _ => (expectWord_orderly (by decide)).bind fun _ =>
    expectWord_orderly (by decide)

theorem limitRound_orderly (limit : Option Limit) : Orderly (limitRound limit) := by
  unfold limitRound
  refine (skipKeyword_orderly _).bind fun _ => .ite ?_ ?_
  · refine (skipKeyword_orderly _).bind fun _ => .ite ?_ ?_
    · exact (Orderly.pure _).bind fun _ => .pure _
    · exact (limitValue_orderly.map _).bind fun _ => .pure _
  · refine (skipKeyword_orderly _).bind fun _ => .ite (limitValue_orderly.bind fun _ => ?_) (.pure _)
    exact (skipAnyKeyword_orderly _).bind fun _ => .pure _

theorem limitClauses_orderly : Orderly limitClauses :=
  .rounding limitRound_orderly none

theorem direction_orderly : Orderly AnalysisStep.direction :=
  (skipKeyword_orderly _).bind fun _ => .ite (.pure _) ((skipKeyword_orderly _).bind fun _ => .pure _)

theorem nullsPlacement_orderly : Orderly AnalysisStep.nullsPlacement := by
  unfold AnalysisStep.nullsPlacement
  refine (skipWord_orderly (by decide)).bind fun _ => .ite ?_ (.pure _)
  refine (skipWhen_orderly fun lexed stands => ?_).bind fun _ => .ite (.pure _) (fail_orderly _)
  rcases Bool.or_eq_true_iff.mp stands with first | last
  · exact uncounted_of_word lexed first (by decide)
  · exact uncounted_of_word lexed last (by decide)

/-- A set operation is blamed on its keyword. -/
theorem rejectSetOperation_orderly : Orderly AnalysisStep.rejectSetOperation := by
  unfold AnalysisStep.rejectSetOperation
  refine look_bind_orderly fun {before} lexed => ?_
  split
  · next is =>
    split
    · next operates => exact .throw (blames_current fun _ _ => .unsupported is operates)
    · exact .pure _
  · exact .pure _

end Scan

namespace AnalysisStep
open Scan Step Cursor

section Statement

theorem statement_orderly {α : Type} (property : Statement → α) : Orderly (statement property) :=
  ⟨fun _ => .of_yields rfl (.refl _)⟩

theorem change_orderly (update : Statement → Statement) : Orderly (change update) :=
  ⟨fun _ => .of_yields rfl (.refl _)⟩

theorem warn_orderly (warning : Warning) : Orderly (warn warning) :=
  ⟨fun _ => .of_yields rfl (.refl _)⟩

theorem addOwnerEdit_orderly (owner : Name) : Orderly (addOwnerEdit owner) :=
  (statement_orderly _).bind fun _ => .ite (change_orderly _) (.pure _)

theorem addOwnerEdits_orderly (owners : List Name) : Orderly (owners.forM addOwnerEdit) := by
  induction owners with
  | nil => exact .pure _
  | cons owner owners ih => exact (addOwnerEdit_orderly owner).bind fun _ => ih

/-- An expression is passed and blamed from the place of the clause on. -/
theorem reading_orderly {α : Type} {reader : ExprStep α} (orderly : Orderly reader) :
    Orderly (reading reader) where
  runs {before} lexed := by
    let start : ExprState := { cursor := before.cursor }
    have startLexed : Token.AreLexed (HasCursor.cursor start).rest := lexed
    have inner := orderly.runs startLexed
    refine ⟨inner.passes, fun {error after} fails => ?_⟩
    exact inner.blames (Prod.ext (error_of_map (congrArg Prod.fst fails)) rfl)

theorem expressionWithEdits_orderly : Orderly expressionWithEdits :=
  (reading_orderly (ExprStep.expressionOf_orderly 0)).bind fun (_, qualifiers) =>
    (addOwnerEdits_orderly qualifiers).bind fun _ => .pure _

end Statement

section Projection

theorem distinct_orderly (dialect : Dialect) : Orderly (distinct dialect) := by
  unfold distinct
  refine (Orderly.scan (skipAnyKeyword_orderly _)).bind fun _ => .ite ?_
    ((Orderly.scan (skipKeyword_orderly _)).bind fun _ => .pure _)
  refine (change_orderly _).bind fun _ => .ite ?_ (.pure _)
  exact (Orderly.scan (skipKeyword_orderly _)).bind fun _ =>
    .ite ((Orderly.scan group_orderly).bind fun _ => .pure _) (.pure _)

/-- An item in which a token can stand nowhere is blamed on this token. -/
theorem depthBehind_blames {depth : Nat} {before after : Cursor} {error : ParseError}
    (fails : Fails (depthBehind depth) before error after) : before.Blames error ∧ after = before := by
  unfold depthBehind at fails
  obtain got | ⟨_, _, got, fails⟩ := fails_bind.mp fails
  · cases got
  cases got
  split at fails
  · next opening =>
    rcases fails_ite.mp fails with ⟨opens, fails⟩ | ⟨_, fails⟩
    · obtain fails | ⟨_, _, answers, _⟩ := fails_bind.mp fails
      · obtain ⟨rfl, rfl⟩ := fails_throw.mp fails
        exact ⟨blames_subquery opening opens, rfl⟩
      · exact absurd answers not_yields_throw
    · exact absurd fails not_fails_pure
  · rcases fails_ite.mp fails with ⟨_, fails⟩ | ⟨_, fails⟩
    · obtain fails | ⟨_, _, answers, _⟩ := fails_bind.mp fails
      · obtain ⟨rfl, rfl⟩ := fails_fail.mp fails
        exact ⟨blames_unexpected _ _, rfl⟩
      · exact absurd answers Scan.not_yields_fail
    · exact absurd fails not_fails_pure
  · next is =>
    obtain ⟨rfl, rfl⟩ := fails_throw.mp fails
    exact ⟨blames_current fun _ _ => .existence is, rfl⟩
  · obtain ⟨rfl, rfl⟩ := fails_fail.mp fails
    exact ⟨blames_unexpected _ _, rfl⟩
  · exact absurd fails not_fails_pure

theorem plainItemRound_orderly (item : PlainItem) : Orderly (plainItemRound item) where
  runs {before} _ := by
    by_cases ends : item.depth = 0 ∧ atTerminator before.cursor = true
    · exact .of_yields (yields_plainItemRound.mpr (.inl ⟨ends.1, ends.2, rfl, rfl⟩)) (.refl _)
    have goesOn : item.depth = 0 → atTerminator before.cursor = false := by
      intro outside
      exact Bool.eq_false_iff.mpr fun terminates => ends ⟨outside, terminates⟩
    rcases yields_or_fails (depthBehind item.depth) before.cursor with
      ⟨depth, _, deepened⟩ | ⟨error, _, fails⟩
    · obtain ⟨admits, rfl⟩ := yields_depthBehind.mp deepened
      exact .of_yields (yields_plainItemRound.mpr (.inr ⟨goesOn, depth, admits, rfl, rfl⟩))
        (passes_behind admits.inside)
    · obtain ⟨blames, rfl⟩ := depthBehind_blames fails
      refine .of_fails ?_ blames
      unfold plainItemRound
      rw [Step.fails_look_bind, if_neg (by simpa using goesOn), Step.fails_look_bind]
      exact fails_bind.mpr (.inl (fails_onCursor.mpr ⟨_, fails, rfl⟩))

theorem plainItem_orderly (start : Nat) (afterValue : Bool) : Orderly (plainItem start afterValue) := by
  unfold plainItem
  refine Orderly.look.bind fun _ => (Orderly.rounding plainItemRound_orderly _).bind fun item => ?_
  split
  · exact .ite .fail_bind (Orderly.look.bind fun _ => .pure _)
  · refine (Orderly.scan aliasName_orderly).bind fun _ => ?_
    exact .ite .fail_bind (Orderly.look.bind fun _ => .pure _)

/-- A star is no placeholder, not even one in quotes. -/
theorem uncounted_of_star {cursor : Cursor} (lexed : Token.AreLexed cursor.rest)
    (stands : (cursor.at? (.symbol .star) || Text.stripQuotes cursor.lexeme == "*") = true) :
    cursor.kind ≠ .symbol .question := by
  obtain ⟨star, ⟨_, same, isStar⟩, moves⟩ := star_moves stands
  obtain rfl := List.singleton_inj.mp same
  have read := lexed star (by simp [moves.rest])
  rw [kind, current_of_cons moves.rest]
  rcases isStar with is | quoted
  · simp [is]
  · intro placeholder
    have starred := read.eq_star_of_symbol placeholder quoted
    simp at starred

theorem item_orderly {dialect : Dialect} (noWord : dialect.itemWord = none) (position : Nat) :
    Orderly (item dialect position) := by
  have star : Orderly (skipWhen fun cursor =>
      cursor.at? (.symbol .star) || Text.stripQuotes cursor.lexeme == "*") :=
    skipWhen_orderly fun lexed stands => uncounted_of_star lexed stands
  unfold item
  rw [noWord]
  dsimp only
  refine (Orderly.scan star).bind fun _ => .ite ?_ (.look_bind fun {before} lexed => ?_)
  · exact (Orderly.scan aliasName_orderly).bind fun _ => .pure _
  · dsimp only [id]
    split
    · next function found =>
      obtain ⟨word, stands, _⟩ := aggregateAt?_some found
      refine .passing (stands.trans_ne (by simp)) lexed ?_
      refine (Orderly.scan group_orderly).bind fun _ => Orderly.look.bind fun _ => .ite ?_ ?_
      · exact (Orderly.scan aliasName_orderly).bind fun _ => .pure _
      · exact plainItem_orderly _ _
    · exact (Orderly.ite (plainItem_orderly _ _) .fail).runs lexed

theorem projection_orderly {dialect : Dialect} (noWord : dialect.itemWord = none) :
    Orderly (projection dialect) := by
  refine (Orderly.rounding (fun position => ?_) 1).bind fun _ => Orderly.look.bind fun _ => change_orderly _
  refine (item_orderly noWord position).bind fun _ => (change_orderly _).bind fun _ => ?_
  exact (Orderly.scan (skipSymbol_orderly (by simp))).bind fun _ => .pure _

theorem head_orderly {dialect : Dialect} (noWord : dialect.itemWord = none) : Orderly (head dialect) :=
  (Orderly.scan (expectKeyword_orderly _)).bind fun _ => (distinct_orderly dialect).bind fun _ =>
    projection_orderly noWord

end Projection

section Keys

theorem joinSide_orderly : Orderly joinSide := by
  refine (reading_orderly (ExprStep.expressionOf_orderly _)).bind fun (side, _) => ?_
  dsimp only
  split
  · exact addOwnerEdit_orderly _
  · exact .pure _

theorem joinEquation_orderly : Orderly joinEquation :=
  joinSide_orderly.bind fun _ => (Orderly.scan (expectSymbol_orderly (by simp))).bind fun _ =>
    joinSide_orderly.bind fun _ => .scan (skipKeyword_orderly _)

theorem condition_orderly : Orderly condition := by
  unfold condition
  have noted : Orderly (do
      let parameters ← look (·.parameters)
      change fun statement => { statement with parameters } : AnalysisStep Unit) :=
    Orderly.look.bind fun _ => change_orderly _
  refine (statement_orderly _).bind fun _ => .ite ?_ ?_
  · exact (Orderly.scan (skipKeyword_orderly _)).bind fun _ => .ite
      ((reading_orderly (ExprStep.expressionOf_orderly 0)).bind fun _ => .pure _) (.pure _)
  · exact (Orderly.scan (skipKeyword_orderly _)).bind fun _ => .ite
      (expressionWithEdits_orderly.bind fun _ => noted) noted

theorem keyItem_orderly : Orderly keyItem :=
  Orderly.look.bind fun _ => expressionWithEdits_orderly.bind fun _ => Orderly.look.bind fun _ =>
    (Orderly.scan direction_orderly).bind fun _ => .pure _

theorem columnKey_orderly (owner : Option Name) (name : Name) (direction : Direction) :
    Orderly (columnKey owner name direction) :=
  (statement_orderly _).bind fun _ => .pure _

theorem groupItem_orderly : Orderly groupItem := by
  refine keyItem_orderly.bind fun (expr, direction, text) => ?_
  dsimp only
  split
  · exact (columnKey_orderly _ _ _).bind fun _ => .pure _
  · exact (columnKey_orderly _ _ _).bind fun _ => .pure _
  · exact (warn_orderly _).bind fun _ => .pure _

theorem orderItem_orderly : Orderly orderItem := by
  refine keyItem_orderly.bind fun (expr, direction, text) => ?_
  dsimp only
  split
  · exact .pure _
  · exact (columnKey_orderly _ _ _).bind fun _ => .pure _
  · exact (columnKey_orderly _ _ _).bind fun _ => .pure _
  · exact (warn_orderly _).bind fun _ => .pure _

theorem groupBy_orderly : Orderly groupBy := by
  unfold groupBy
  have having : Orderly (do
      if ← skipKeyword .HAVING then
        let _ ← expressionWithEdits : AnalysisStep Unit) :=
    (Orderly.scan (skipKeyword_orderly _)).bind fun _ =>
      .ite (expressionWithEdits_orderly.bind fun _ => .pure _) (.pure _)
  have round : Orderly groupRound := by
    refine groupItem_orderly.bind fun found => ?_
    split
    · exact (change_orderly _).bind fun _ => .scan (skipSymbol_orderly (by simp))
    · exact .scan (skipSymbol_orderly (by simp))
  refine (Orderly.scan (skipKeyword_orderly _)).bind fun _ => .ite ?_ having
  refine (Orderly.scan (expectKeyword_orderly _)).bind fun _ => (Orderly.whileTrue round).bind fun _ => ?_
  exact (Orderly.whileTrue (.scan (skipAnyKeyword_orderly _))).bind fun _ => having

theorem orderBy_orderly (dialect : Dialect) : Orderly (orderBy dialect) := by
  have item : Orderly (dialectOrderItem dialect) :=
    orderItem_orderly.bind fun _ => .ite
      ((Orderly.scan nullsPlacement_orderly).bind fun _ => .pure _) (.pure _)
  refine (Orderly.scan (skipKeyword_orderly _)).bind fun _ => .ite ?_ (.pure _)
  refine (Orderly.scan (expectKeyword_orderly _)).bind fun _ => .whileTrue (item.bind fun found => ?_)
  split
  · exact (change_orderly _).bind fun _ => .scan (skipSymbol_orderly (by simp))
  · exact .scan (skipSymbol_orderly (by simp))

theorem trailingClauses_orderly (dialect : Dialect) : Orderly (trailingClauses dialect) := by
  have set (limit : Option Limit) : Orderly (setLimit limit) := by
    cases limit with
    | none => exact .pure _
    | some limit => exact change_orderly fun statement => { statement with limit := some limit }
  unfold trailingClauses
  split
  · exact .pure _
  · exact (Orderly.scan limitClause_orderly).bind fun limit => (set limit).bind fun _ =>
      .scan lockingRead_orderly
  · exact (Orderly.scan limitClauses_orderly).bind set

end Keys

end AnalysisStep

end SelectRouting
