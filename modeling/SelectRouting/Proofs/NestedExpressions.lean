import SelectRouting.Proofs.ExpressionAnswers

/-!
# Nested expressions are read

Where a reader of nested expressions reads those that are written with less than `size` tokens
(`ExprStep.Completes`), the lists in parentheses and the conditional expressions that hold them are
passed.
-/

namespace SelectRouting

namespace ExprStep
open Scan Step Cursor ExprState ExprTree

variable {before after : ExprState} {token : Token} {tokens : List Token} {tree : ExprTree}

theorem not_atKeyword {cursor : Cursor} {word : Keyword} (elsewhere : cursor.kind ≠ .keyword word) :
    ¬ cursor.atKeyword? [word] = true := by
  simpa [atKeyword?_iff] using elsewhere

/-- The reader reads every expression that is written with less than `size` tokens. -/
def Completes (size : Nat) (nested : Nat → ExprStep Expr) : Prop :=
  ∀ {place : Nat} {tree : ExprTree} {tokens : List Token} {before after : ExprState},
    WrittenAt place tree tokens → tokens.length < size →
      Crosses before tokens tree.owners after → Expr.Ends place after.cursor.rest →
        ∃ expr, Yields (nested place) before expr after

section Nested
variable {nested : Nat → ExprStep Expr} {size : Nat} (complete : Completes size nested)
include complete

/-- An expression that stands by itself is read where it ends. -/
theorem nested_answers (written : Written tree tokens) (short : tokens.length < size)
    (crosses : Crosses before tokens tree.owners after)
    (ends : after.cursor.kind ∈ Expr.endings) : ∃ expr, Yields (nested 0) before expr after := by
  rw [kind_eq_frontKind] at ends
  exact complete (.bare (Nat.zero_le _) written) short crosses
    (Expr.ends_of_mem crosses.lexed_after ends)

/-- The expressions of a list are passed with the commas between them. -/
theorem list_answers {items : List ExprTree} (separated : Separated Written items tokens)
    (short : tokens.length < size) (crosses : Crosses before tokens (ownersOfItems items) after)
    (closes : after.cursor.kind = .symbol .rightParen) :
    Repeats (do let _ ← nested 0; skipSymbol .comma) before after := by
  induction separated generalizing before with
  | single written =>
    rw [ownersOfItems, ownersOfItems, List.append_nil] at crosses
    obtain ⟨expr, answers⟩ :=
      nested_answers complete written short crosses (by simp [closes, Expr.endings])
    exact .last (yields_bind.mpr ⟨expr, after, answers, skipSymbol_declines (by simp [closes])⟩)
  | cons written isComma _ ih =>
    obtain ⟨between, first, crosses⟩ := crosses.split
    have ends := crosses.kind.trans isComma
    obtain ⟨behind, comma, rest⟩ := crosses.uncons
    simp only [List.length_append, List.length_cons] at short
    obtain ⟨expr, answers⟩ := nested_answers complete written (by omega) first
      (by simp [ends, Expr.endings])
    exact .again
      (yields_bind.mpr ⟨expr, between, answers, skipSymbol_answers comma isComma (by simp)⟩)
      (ih (by omega) rest)

/-- The branches of a conditional expression are passed. -/
theorem branches_answer {branches : List (ExprTree × ExprTree)}
    (branched : Branched Written branches tokens) (short : tokens.length < size)
    (crosses : Crosses before tokens (ownersOfBranches branches) after)
    (ends : after.cursor.kind = .keyword .ELSE ∨ after.cursor.kind = .keyword .END) :
    Repeats (do
      if ← skipKeyword .WHEN then
        let _ ← nested 0
        expectKeyword .THEN
        let _ ← nested 0
        return true
      else return false : ExprStep Bool) before after := by
  induction branched generalizing before with
  | nil =>
    obtain rfl := crosses.eq_before
    have elsewhere : after.cursor.kind ≠ .keyword .WHEN := by
      rcases ends with ends | ends <;> simp [ends]
    exact .last (yields_bind.mpr ⟨false, after, skipKeyword_declines elsewhere,
      yields_pure.mpr ⟨rfl, rfl⟩⟩)
  | @cons condition result branches first second rest asks answers isWhen one isThen two others ih =>
    obtain ⟨behindWhen, when_, crosses⟩ := crosses.uncons
    obtain ⟨behindCondition, crossesCondition, crosses⟩ := crosses.split
    have atThen := crosses.kind.trans isThen
    obtain ⟨behindThen, then_, crosses⟩ := crosses.uncons
    obtain ⟨behindResult, crossesResult, crosses⟩ := crosses.split
    have atNext : behindResult.cursor.kind ∈ Expr.endings := by
      cases others with
      | nil =>
        obtain rfl := crosses.eq_before
        rcases ends with ends | ends <;> simp [ends, Expr.endings]
      | cons isWhen => simp [crosses.kind, isWhen, Expr.endings]
    simp only [List.length_append, List.length_cons] at short
    obtain ⟨_, asked⟩ := nested_answers complete one (by omega) crossesCondition
      (by simp [atThen, Expr.endings])
    obtain ⟨_, answered⟩ := nested_answers complete two (by omega) crossesResult atNext
    refine .again (yields_bind.mpr ⟨true, behindWhen, skipKeyword_answers when_ isWhen, ?_⟩)
      (ih (by omega) crosses)
    exact yields_bind.mpr ⟨_, _, asked, yields_bind.mpr ⟨_, _, expectKeyword_answers then_ isThen,
      yields_bind.mpr ⟨_, _, answered, yields_pure.mpr ⟨rfl, rfl⟩⟩⟩⟩

variable (sound : ReadsPhrases nested)
include sound

omit complete in
/-- A list goes on behind a comma. -/
theorem list_shrinks (answers : Yields (do let _ ← nested 0; skipSymbol .comma) before true after) :
    after.cursor.rest.length < before.cursor.rest.length := by
  obtain ⟨_, between, first, rest⟩ := yields_bind.mp answers
  obtain ⟨phrases, reads⟩ := sound first
  rcases skipSymbol_reads rest (by decide) (by simp) with ⟨_, comma, _, passed⟩ | ⟨asked, _⟩
  · rw [reads.moves.rest, passed.moves.rest]
    simp [Phrase.tokens]
    omega
  · cases asked

omit complete in
/-- The branches of a conditional expression go on behind a `WHEN`. -/
theorem branches_shrink (answers : Yields (do
      if ← skipKeyword .WHEN then
        let _ ← nested 0
        expectKeyword .THEN
        let _ ← nested 0
        return true
      else return false : ExprStep Bool) before true after) :
    after.cursor.rest.length < before.cursor.rest.length := by
  obtain ⟨found, between, first, rest⟩ := yields_bind.mp answers
  rcases skipKeyword_reads first (by decide) with ⟨rfl, word, _, one⟩ | ⟨rfl, _, rfl⟩
  · simp only [if_pos, yields_bind, yields_pure] at rest
    obtain ⟨_, _, asked, _, _, expected, _, _, answered, _, rfl⟩ := rest
    obtain ⟨two, second⟩ := sound asked
    obtain ⟨token, _, three⟩ := expectKeyword_reads expected (by decide)
    obtain ⟨four, fourth⟩ := sound answered
    rw [one.moves.rest, second.moves.rest, three.moves.rest, fourth.moves.rest]
    simp [Phrase.tokens]
    omega
  · cases (yields_pure.mp rest).1

/-- A list of expressions in parentheses is passed. -/
theorem parenthesized_answers {items : List ExprTree} (grouped : Grouped Written items tokens)
    (short : tokens.length ≤ size) (crosses : Crosses before tokens (ownersOfItems items) after) :
    Yields (parenthesized nested) before () after := by
  unfold parenthesized
  rw [Step.yields_look_bind]
  cases grouped with
  | empty isOpening isClosing =>
    obtain ⟨between, opening, closing⟩ := crosses.uncons
    have noSelect : between.cursor.kind ≠ .keyword .SELECT := by simp [closing.kind, isClosing]
    refine yields_bind.mpr ⟨(), between, expectSymbol_answers opening isOpening (by simp), ?_⟩
    rw [Step.yields_look_bind, cursor_expr, if_neg (not_atKeyword noSelect)]
    exact yields_bind.mpr ⟨true, after, skipSymbol_answers closing isClosing (by simp),
      yields_pure.mpr ⟨rfl, rfl⟩⟩
  | @items _ inner _ _ isOpening separated isClosing =>
    obtain ⟨between, opening, crosses⟩ := crosses.uncons
    obtain ⟨behind, crosses, closing⟩ := crosses.unsnoc
    have front : between.cursor.kind ∉ Expr.noFronts := by
      rw [← crosses.frontKind (ne_nil_of_front separated.front)]
      exact separated.front
    simp only [Expr.noFronts, List.mem_cons, List.not_mem_nil, or_false, not_or] at front
    simp only [List.length_cons, List.length_append] at short
    have ran := list_answers complete separated (by omega) crosses (closing.kind.trans isClosing)
    refine yields_bind.mpr ⟨(), between, expectSymbol_answers opening isOpening (by simp), ?_⟩
    rw [Step.yields_look_bind, cursor_expr, if_neg (not_atKeyword front.2.1)]
    refine yields_bind.mpr ⟨false, between, skipSymbol_declines front.1, ?_⟩
    rw [if_neg Bool.false_ne_true]
    exact yields_bind.mpr ⟨(), behind, yields_whileTrue_of_repeats ran (list_shrinks sound),
      expectSymbol_answers closing isClosing (by simp)⟩

omit sound in
/-- What stands behind the last branch of a conditional is read to its end. -/
theorem otherwise_answers {otherwise : Option ExprTree} {tokens : List Token} {closing : Token}
    {middle : ExprState} (last : Announced IsElse Written otherwise tokens)
    (isEnd : closing.kind = .keyword .END) (short : tokens.length ≤ size)
    (crosses : Crosses before tokens (ownersOfPart otherwise) middle)
    (closes : Crosses middle [closing] [] after) :
    (before.cursor.kind = .keyword .ELSE ∨ before.cursor.kind = .keyword .END) ∧
      Yields (do
        if ← skipKeyword .ELSE then
          let _ ← nested 0
        expectKeyword .END : ExprStep Unit) before () after := by
  cases last with
  | absent =>
    obtain rfl := crosses.eq_before
    have isNext := closes.kind.trans isEnd
    refine ⟨.inr isNext, yields_bind.mpr ⟨false, _, skipKeyword_declines (by simp [isNext]), ?_⟩⟩
    exact expectKeyword_answers closes isEnd
  | @present tree lead result isElse written =>
    obtain ⟨word, rfl, isElse⟩ := isElse
    obtain ⟨behindElse, else_, crossesResult⟩ := crosses.uncons
    obtain ⟨_, answered⟩ := nested_answers complete written (by simp at short; omega) crossesResult
      (by simp [closes.kind, isEnd, Expr.endings])
    refine ⟨.inl (else_.kind.trans isElse),
      yields_bind.mpr ⟨true, behindElse, skipKeyword_answers else_ isElse, ?_⟩⟩
    exact yields_bind.mpr ⟨_, _, answered, expectKeyword_answers closes isEnd⟩

/-- A conditional expression is passed. -/
theorem conditional_answers {subject otherwise : Option ExprTree}
    {branches : List (ExprTree × ExprTree)} {one two three : List Token} {opening closing : Token}
    (isCase : opening.kind = .keyword .CASE) (first : Announced (· = []) Written subject one)
    (some : branches ≠ []) (branched : Branched Written branches two)
    (last : Announced IsElse Written otherwise three)
    (isEnd : closing.kind = .keyword .END)
    (short : (opening :: (one ++ (two ++ (three ++ [closing])))).length ≤ size)
    (crosses : Crosses before (opening :: (one ++ (two ++ (three ++ [closing]))))
      (ownersOfPart subject ++ (ownersOfBranches branches ++ ownersOfPart otherwise)) after) :
    Yields (conditional nested) before () after := by
  simp only [List.length_cons, List.length_append] at short
  obtain ⟨opened, opening, crosses⟩ := crosses.uncons
  obtain ⟨atBranches, crossesSubject, crosses⟩ := crosses.split
  obtain ⟨behindBranches, crossesBranches, crosses⟩ := crosses.split
  obtain ⟨atEnd, crossesOtherwise, closing⟩ := crosses.unsnoc
  have atWhen : atBranches.cursor.kind = .keyword .WHEN := by
    cases branched with
    | nil => exact absurd rfl some
    | cons isWhen => exact crossesBranches.kind.trans isWhen
  have stands : atBranches.cursor.atKeyword? [.WHEN] = true :=
    atKeyword?_iff.mpr ⟨.WHEN, by simp, atWhen⟩
  obtain ⟨ends, ending⟩ := otherwise_answers complete last isEnd (by omega) crossesOtherwise closing
  have ran := branches_answer complete branched (by omega) crossesBranches ends
  have rest : Yields (do
        unless ← look (·.atKeyword? [.WHEN]) do fail (.keyword .WHEN)
        Step.whileTrue do
          if ← skipKeyword .WHEN then
            let _ ← nested 0
            expectKeyword .THEN
            let _ ← nested 0
            return true
          else return false
        if ← skipKeyword .ELSE then
          let _ ← nested 0
        expectKeyword .END : ExprStep Unit) atBranches () after := by
    rw [Step.yields_look_bind, cursor_expr, if_pos stands]
    exact yields_bind.mpr ⟨(), _, yields_whileTrue_of_repeats ran (branches_shrink sound), ending⟩
  refine yields_bind.mpr ⟨(), opened, expectKeyword_answers opening isCase, ?_⟩
  rw [Step.yields_look_bind, cursor_expr]
  cases first with
  | absent =>
    obtain rfl := crossesSubject.eq_before
    rw [if_pos stands]
    exact rest
  | @present tree lead subject isEmpty written =>
    subst isEmpty
    have front : opened.cursor.kind ∉ Expr.noFronts := by
      rw [← crossesSubject.frontKind (ne_nil_of_front written.front)]
      exact written.front
    simp only [Expr.noFronts, List.mem_cons, List.not_mem_nil, or_false, not_or] at front
    obtain ⟨_, asked⟩ := nested_answers complete written (by simp at short; omega) crossesSubject
      (by simp [atWhen, Expr.endings])
    rw [if_neg (not_atKeyword front.2.2.1)]
    exact yields_bind.mpr ⟨_, _, asked, rest⟩

end Nested

end ExprStep

end SelectRouting
