import SelectRouting.Proofs.TrimmedRuns

/-!
# Scans and expressions over a shorter text

Each reader of tokens and of expressions follows itself over a text that lacks the `OFFSET` clause at its
end. At the end of the shorter text a reader that asks for a token fails, and one that asks whether a
token stands there sees none in either text.
-/

namespace SelectRouting

namespace Scan
open Step OffsetClause
variable {clause : OffsetClause}

section Words

theorem skipWhen_shadows {property : Cursor → Bool} (shared : clause.IsShared property) :
    Shadows clause.Trims (skipWhen property) (skipWhen property) :=
  .bind (look_shadows shared) fun _ => .ite (.bind .advance fun _ => .pure _) (.pure _)

theorem skipSymbol_shadows (mark : Symbol) :
    Shadows clause.Trims (skipSymbol mark) (skipSymbol mark) :=
  skipWhen_shadows (isShared_at? mark)

theorem skipAnyKeyword_shadows {words : List Keyword} (without : words.contains .OFFSET = false) :
    Shadows clause.Trims (skipAnyKeyword words) (skipAnyKeyword words) :=
  skipWhen_shadows (isShared_atKeyword? without)

theorem skipKeyword_shadows {word : Keyword} (other : [word].contains .OFFSET = false) :
    Shadows clause.Trims (skipKeyword word) (skipKeyword word) :=
  skipAnyKeyword_shadows other

theorem expectSymbol_shadows (mark : Symbol) :
    Shadows clause.Trims (expectSymbol mark) (expectSymbol mark) :=
  .bind (skipSymbol_shadows mark) fun _ => .ite (.pure _) .fail

theorem expectKeyword_shadows {word : Keyword} (other : [word].contains .OFFSET = false) :
    Shadows clause.Trims (expectKeyword word) (expectKeyword word) :=
  .bind (skipKeyword_shadows other) fun _ => .ite (.pure _) .fail

end Words

theorem countParameter_shadows : Shadows clause.Trims (modify Cursor.countParameter : Scan Unit)
    (modify Cursor.countParameter) where
  shrinks ran := by
    cases ran
    exact le_rfl
  follows trims answer answer' after after' ran ran' := by
    cases ran
    cases ran'
    exact .inl ⟨rfl, trims.countParameter⟩

theorem parameter_shadows : Shadows clause.Trims parameter parameter :=
  .bind (expectSymbol_shadows .question) fun _ => .bind (look_shadows isShared_parameters) fun _ =>
    .bind countParameter_shadows fun _ => .pure _

/-- No token of a group stands at the end of the text. -/
theorem groupRound_none {depth : Nat} {before after : Cursor} {answer : Round Nat Unit}
    (none : before.rest = []) : ¬ Yields (groupRound depth) before answer after := by
  intro ran
  obtain ⟨token, passes, _⟩ := groupRound_turns ran
  have tokens := passes.rest
  rw [none] at tokens
  cases tokens

theorem groupRound_shadows (depth : Nat) :
    Shadows clause.Trims (groupRound depth) (groupRound depth) := by
  unfold groupRound
  have passed (depth : Nat) : Shadows clause.Trims
      (do advance; return if depth == 0 then .done () else .next depth : Scan (Round Nat Unit))
      (do advance; return if depth == 0 then .done () else .next depth) :=
    .bind .advance fun _ => .pure _
  refine look_bind_shadows (fun {cursor other} alike => ?_)
    fun _ none => .of_none fun answer after ran => @groupRound_none depth _ _ _ none ran
  rw [alike.kind]
  split
  · exact passed _
  · exact passed _
  · exact .bind countParameter_shadows fun _ => passed _
  · exact .fail_bind
  · exact passed _

theorem group_shadows : Shadows clause.Trims group group := by
  unfold group
  refine .bind (look_shadows (isShared_at? _)) fun _ => .ite ?_ (.pure _)
  refine look_bind_shadows (fun {cursor other} alike => ?_) fun _ none => .of_none fun answer after ran => ?_
  · rw [alike.start]
    exact .bind (.rounding groupRound_shadows 0) fun _ => look_shadows (isShared_quoted _)
  · obtain ⟨_, _, rounds, _⟩ := yields_bind.mp ran
    cases rounds_of_rounding rounds with
    | done answers => exact groupRound_none none answers
    | next answers _ => exact groupRound_none none answers

theorem aliasName_shadows : Shadows clause.Trims aliasName aliasName := by
  unfold aliasName
  have taken : Shadows clause.Trims
      (do
        let written ← look (·.lexeme)
        advance
        return some (Text.stripQuotes written) : Scan (Option String))
      (do
        let written ← look (·.lexeme)
        advance
        return some (Text.stripQuotes written)) :=
    .taking fun {cursor other} alike => by
      rw [alike.lexeme]
      exact .pure _
  have answered (isAlias : Bool) : Shadows clause.Trims
      (if isAlias then do
          let written ← look (·.lexeme)
          advance
          return some (Text.stripQuotes written)
        else return none : Scan (Option String))
      (if isAlias then do
          let written ← look (·.lexeme)
          advance
          return some (Text.stripQuotes written)
        else return none) :=
    .ite taken (.pure _)
  refine .bind (skipKeyword_shadows rfl) fun _ => .ite ?_ ?_
  · refine look_bind_shadows (fun {cursor other} alike => ?_) fun {cursor other} trims none => ?_
    · rw [alike.atSymbolOrEnd]
      exact answered _
    · have stands : (!cursor.atSymbolOrEnd) = true := by
        rw [Cursor.atSymbolOrEnd_eq_false.mpr (by simp [trims.kind_of_end none, TokenKind.isSymbol])]
        rfl
      intro answer answer' after after' ran _
      rw [stands] at ran
      have taken : Shadows clause.Trims (pure (some (Text.stripQuotes cursor.lexeme)))
        (pure (some (Text.stripQuotes cursor.lexeme)) : Scan (Option String)) := .pure _
      exact .inr (Shadows.entered_of_advance taken trims none (yields_look_bind.mp ran))
  · refine .bind (look_shadows fun cursor other trims => ?_) answered
    rcases trims.kind_cases with same | ⟨ends, word⟩
    · rw [same]
    · rw [ends, word]

theorem join_shadows : Shadows clause.Trims join join := by
  have announced : Shadows clause.Trims joinAnnouncement joinAnnouncement := by
    unfold joinAnnouncement
    have outer : Shadows clause.Trims (do let _ ← skipKeyword .OUTER; return true : Scan Bool)
        (do let _ ← skipKeyword .OUTER; return true) :=
      .bind (skipKeyword_shadows rfl) fun _ => .pure _
    refine .bind (skipKeyword_shadows rfl) fun _ => .ite ?_ ?_
    · exact .bind (skipAnyKeyword_shadows rfl) fun _ => .ite outer (.pure _)
    · exact .bind (skipAnyKeyword_shadows rfl) fun _ => .ite outer (skipAnyKeyword_shadows rfl)
  unfold join
  refine .bind (skipSymbol_shadows _) fun _ => .ite (.pure _) ?_
  refine .bind (skipAnyKeyword_shadows rfl) fun _ => .ite (.pure _) ?_
  refine .bind announced fun _ => .ite ?_ (.pure _)
  exact .bind (expectKeyword_shadows rfl) fun _ => .pure _

end Scan

namespace OffsetClause

/-- The readers of expressions stand at the same place and have met the same qualifiers. -/
structure TrimsExpr (clause : OffsetClause) (state other : ExprState) : Prop where
  cursor : clause.Trims state.cursor other.cursor
  qualifiers : other.qualifiers = state.qualifiers

end OffsetClause

namespace ExprStep
open Scan Step OffsetClause
variable {clause : OffsetClause}

instance (clause : OffsetClause) : Trimming clause clause.TrimsExpr :=
  ⟨TrimsExpr.cursor, fun before trims => ⟨trims, before.qualifiers⟩⟩

section Names

theorem qualify_shadows (owner : Name) :
    Shadows clause.TrimsExpr (qualify owner) (qualify owner) where
  shrinks ran := by
    obtain rfl := yields_qualify.mp ran
    exact le_rfl
  follows before answer answer' after after' ran ran' := by
    obtain rfl := yields_qualify.mp ran
    obtain rfl := yields_qualify.mp ran'
    exact .inl ⟨rfl, before.cursor, by rw [before.qualifiers]⟩

theorem spanningFrom_shadows (start : Nat) :
    Shadows clause.TrimsExpr (spanningFrom start) (spanningFrom start) :=
  .seen fun _ _ trims => by rw [trims.previous]

theorem takeName_shadows : Shadows clause.TrimsExpr takeName takeName :=
  .taking fun {cursor other} alike => by
    rw [alike.current]
    exact .pure _

theorem argumentsRound_shadows (depth : Nat) :
    Shadows clause.TrimsExpr (argumentsRound depth) (argumentsRound depth) := by
  unfold argumentsRound
  have passed (answer : Round Nat Unit) : Shadows clause.TrimsExpr
      (do advance; return answer : ExprStep (Round Nat Unit)) (do advance; return answer) :=
    .bind .advance fun _ => .pure _
  refine .look_cursor (fun {cursor other} alike => ?_) fun {before before'} _ _ none => ?_
  · have opens : other.opensSubquery = cursor.opensSubquery :=
      alike.eq_of_next (· == .keyword .SELECT) rfl
    rw [alike.kind, opens, alike.current]
    split
    · exact .ite .throw_bind (passed _)
    · exact passed _
    · exact .bind (.scan parameter_shadows) fun _ => .pure _
    · refine .bind takeName_shadows fun name => .bind (.seen (isShared_at? _)) fun _ => .ite ?_ (.pure _)
      exact .bind (qualify_shadows name) fun _ => .pure _
    · exact .fail
    · exact passed _
  · rw [Trims.kind_of_none none]
    exact .of_none fun _ _ => not_yields_fail

theorem arguments_shadows : Shadows clause.TrimsExpr arguments arguments :=
  .rounding argumentsRound_shadows 0

theorem nameRound_shadows (start : Nat) (parts : Option Name × Name) :
    Shadows clause.TrimsExpr (nameRound start parts) (nameRound start parts) := by
  obtain ⟨owner, name⟩ := parts
  unfold nameRound
  refine .bind (.scan (skipSymbol_shadows _)) fun _ => .ite ?_ ?_
  · refine .bind (.scan (skipSymbol_shadows _)) fun _ => .ite ?_ ?_
    · exact .bind (qualify_shadows name) fun _ => .bind (spanningFrom_shadows start) fun _ => .pure _
    · exact .inside (.bind takeName_shadows fun _ => .pure _)
  · split
    · exact .bind (qualify_shadows _) fun _ => .pure _
    · exact .pure _

theorem name_shadows : Shadows clause.TrimsExpr name name := by
  have behind (start : Nat) (first : Name) : Shadows clause.TrimsExpr
      (do
        if ← look (·.at? (.symbol .leftParen)) then
          arguments
          spanningFrom start
        else
          Step.rounding (nameRound start) (none, first) : ExprStep Expr)
      (do
        if ← look (·.at? (.symbol .leftParen)) then
          arguments
          spanningFrom start
        else
          Step.rounding (nameRound start) (none, first)) :=
    .bind (.seen (isShared_at? _)) fun _ => .ite
      (.bind arguments_shadows fun _ => spanningFrom_shadows start) (.rounding (nameRound_shadows start) _)
  refine .look_bind (fun {cursor other} alike => ?_) fun start _ none => ?_
  · rw [alike.start]
    exact .bind takeName_shadows (behind _)
  · intro answer answer' after after' ran _
    obtain ⟨first, between, taken, rest⟩ := yields_bind.mp ran
    obtain ⟨_, rfl⟩ := yields_takeName.mp taken
    exact .inr ((behind _ first).entered rest (start.cursor.entered none))

theorem parameterName_shadows : Shadows clause.TrimsExpr parameterName parameterName :=
  .bind .advance fun _ => .bind (.scan (skipSymbol_shadows _)) fun _ => .inside .advance

theorem cast_shadows : Shadows clause.TrimsExpr cast cast :=
  .bind (.scan (expectSymbol_shadows _)) fun _ => .inside <| .bind .advance fun _ =>
    .bind (.scan group_shadows) fun _ => .pure _

end Names

/-- No operand stands at the end of a text. -/
theorem operand_none {nested : Nat → ExprStep Expr} {before after : ExprState} {expr : Expr}
    (none : before.cursor.rest = []) : ¬ Yields (operand nested) before expr after := by
  intro ran
  have begins := (operand_begins ran).1
  rw [Trims.kind_of_none none] at begins
  cases begins

section Nested
variable {nested nested' : Nat → ExprStep Expr}
  (inner : ∀ power, Shadows clause.TrimsExpr (nested power) (nested' power))
include inner

theorem parenthesized_shadows :
    Shadows clause.TrimsExpr (parenthesized nested) (parenthesized nested') := by
  unfold parenthesized
  have listed : Shadows clause.TrimsExpr (do
      unless ← skipSymbol .rightParen do
        Step.whileTrue do
          let _ ← nested 0
          skipSymbol .comma
        expectSymbol .rightParen : ExprStep Unit) (do
      unless ← skipSymbol .rightParen do
        Step.whileTrue do
          let _ ← nested' 0
          skipSymbol .comma
        expectSymbol .rightParen) := by
    refine .bind (.scan (skipSymbol_shadows _)) fun _ => .ite (.pure _) ?_
    refine .bind (.whileTrue ?_) fun _ => .scan (expectSymbol_shadows _)
    exact .bind (inner 0) fun _ => .scan (skipSymbol_shadows _)
  refine .look_any fun _ _ => .bind (.scan (expectSymbol_shadows _)) fun _ => ?_
  exact .bind (.seen (isShared_atKeyword? rfl)) fun _ => .ite .throw_bind listed

theorem conditional_shadows :
    Shadows clause.TrimsExpr (conditional nested) (conditional nested') := by
  unfold conditional
  have ended : Shadows clause.TrimsExpr (liftM (expectKeyword .END) : ExprStep Unit)
      (liftM (expectKeyword .END)) :=
    .scan (expectKeyword_shadows rfl)
  have branches : Shadows clause.TrimsExpr (do
      unless ← look (·.atKeyword? [.WHEN]) do fail (.keyword .WHEN)
      Step.whileTrue do
        if ← skipKeyword .WHEN then
          let _ ← nested 0
          expectKeyword .THEN
          let _ ← nested 0
          return true
        else return false
      if ← skipKeyword .ELSE then
        let _ ← nested 0
      expectKeyword .END : ExprStep Unit) (do
      unless ← look (·.atKeyword? [.WHEN]) do fail (.keyword .WHEN)
      Step.whileTrue do
        if ← skipKeyword .WHEN then
          let _ ← nested' 0
          expectKeyword .THEN
          let _ ← nested' 0
          return true
        else return false
      if ← skipKeyword .ELSE then
        let _ ← nested' 0
      expectKeyword .END) := by
    refine .bind (.seen (isShared_atKeyword? rfl)) fun _ => .ite ?_ .fail_bind
    refine .bind (.whileTrue ?_) fun _ => ?_
    · refine .bind (.scan (skipKeyword_shadows rfl)) fun _ => .ite ?_ (.pure _)
      exact .bind (inner 0) fun _ => .bind (.scan (expectKeyword_shadows rfl)) fun _ =>
        .bind (inner 0) fun _ => .pure _
    · exact .bind (.scan (skipKeyword_shadows rfl)) fun _ =>
        .ite (.bind (inner 0) fun _ => ended) ended
  refine .bind (.scan (expectKeyword_shadows rfl)) fun _ => ?_
  refine .bind (.seen (isShared_atKeyword? rfl)) fun _ => .ite branches ?_
  exact .bind (inner 0) fun _ => branches

theorem primary_shadows : Shadows clause.TrimsExpr (primary nested) (primary nested') := by
  unfold primary
  have passed (expr : Expr) : Shadows clause.TrimsExpr
      (do advance; return expr : ExprStep Expr) (do advance; return expr) :=
    .bind .advance fun _ => .pure _
  refine .look_cursor (fun {cursor other} alike => ?_) fun {before before'} _ _ none => ?_
  · have calls : ((other.peek 1).kind == .symbol .leftParen) =
        ((cursor.peek 1).kind == .symbol .leftParen) :=
      alike.eq_of_next (· == .symbol .leftParen) rfl
    dsimp only
    rw [alike.current, calls]
    split
    · exact passed _
    · exact passed _
    · exact passed _
    · exact passed _
    · exact passed _
    · exact passed _
    · exact passed _
    · exact .bind (.scan parameter_shadows) fun _ => .pure _
    · exact .bind parameterName_shadows fun _ => spanningFrom_shadows _
    · exact .bind parameterName_shadows fun _ => spanningFrom_shadows _
    · exact .bind (parenthesized_shadows inner) fun _ => spanningFrom_shadows _
    · exact .throw
    · exact .bind (conditional_shadows inner) fun _ => spanningFrom_shadows _
    · exact name_shadows
    · refine .ite ?_ (.ite name_shadows .fail)
      exact .bind .advance fun _ => .bind arguments_shadows fun _ => spanningFrom_shadows _
    · exact .fail
  · have ended : (HasCursor.cursor before').current.kind = .endOfInput := Trims.kind_of_none none
    dsimp only
    rw [ended]
    exact .of_none fun _ _ => not_yields_fail

theorem operand_shadows : Shadows clause.TrimsExpr (operand nested) (operand nested') := by
  unfold operand
  refine .look_bind (fun {cursor other} alike => ?_) fun _ _ none => .of_none fun answer after ran => ?_
  · rw [alike.start]
    refine .look_bind (fun {cursor other} alike => ?_) fun start trims none => ?_
    · rw [alike.kind]
      split
      · exact .bind .advance fun _ => .bind (inner _) fun _ => spanningFrom_shadows _
      · exact primary_shadows inner
    · rw [trims.kind_of_end none, Trims.kind_of_none none]
      exact (primary_shadows inner).follows start
  · exact operand_none none (Step.yields_look_bind.mpr ran)

theorem operation_shadows (power : Nat) :
    Shadows clause.TrimsExpr (operation nested power) (operation nested' power) := by
  unfold operation
  have operand : Shadows clause.TrimsExpr (do let _ ← nested power : ExprStep Unit)
      (do let _ ← nested' power) :=
    .bind (inner power) fun _ => .pure _
  have passed : Shadows clause.TrimsExpr
      (do advance; let _ ← nested power : ExprStep Unit) (do advance; let _ ← nested' power) :=
    .bind .advance fun _ => operand
  refine .bind (.scan (skipKeyword_shadows rfl)) fun _ => ?_
  refine .look_bind (fun {cursor other} alike => ?_) fun start trims none => ?_
  · rw [alike.kind]
    split
    · refine .bind .advance fun _ => .bind (.scan (skipKeyword_shadows rfl)) fun _ => ?_
      exact .bind (.scan (skipAnyKeyword_shadows rfl)) fun _ => .ite (.pure _) .fail
    · refine .bind .advance fun _ => ?_
      exact .bind (.seen (isShared_at? _)) fun _ => .ite (parenthesized_shadows inner) .fail_bind
    · exact .bind .advance fun _ => .bind (inner _) fun _ =>
        .bind (.scan (expectKeyword_shadows rfl)) fun _ => operand
    · refine .bind .advance fun _ => .bind (inner _) fun _ => ?_
      exact .bind (.seen isShared_escape) fun _ => .ite passed (.pure _)
    · exact passed
  · rw [trims.kind_of_end none, Trims.kind_of_none none]
    exact passed.follows start

theorem expressionRound_shadows (power start : Nat) (left : Expr) :
    Shadows clause.TrimsExpr (expressionRound nested power start left)
      (expressionRound nested' power start left) := by
  unfold expressionRound
  refine .look_cursor (fun {cursor other} alike => ?_) fun start trims none => ?_
  · have lone : atLoneNot other = atLoneNot cursor := by
      rw [atLoneNot, atLoneNot, Cursor.atKeyword?, Cursor.atKeyword?, alike.kind]
      rcases alike.next_cases with same | ⟨ends, word⟩
      · rw [same]
      · rw [ends, word]
    rw [lone, alike.kind]
    split
    · refine .ite (.pure _) (.bind cast_shadows fun _ => ?_)
      exact .bind (spanningFrom_shadows _) fun _ => .pure _
    · refine .ite (.pure _) (.bind (operation_shadows inner _) fun _ => ?_)
      exact .bind (spanningFrom_shadows _) fun _ => .pure _
    · exact .pure _
  · rw [trims.kind_of_end none, Trims.kind_of_none none]
    exact (Shadows.pure _).follows start

theorem expressionWith_shadows (power : Nat) :
    Shadows clause.TrimsExpr (expressionWith nested power) (expressionWith nested' power) := by
  unfold expressionWith
  refine .look_bind (fun {cursor other} alike => ?_) fun _ _ none => .of_none fun answer after ran => ?_
  · rw [alike.start]
    exact .bind (operand_shadows inner) fun _ => .rounding (expressionRound_shadows inner power _) _
  · obtain ⟨_, _, operand, _⟩ := yields_bind.mp ran
    exact operand_none none operand

end Nested

/-- By induction on how deep expressions are nested in each other, which in the shorter text may be less. -/
theorem expressionWithin_shadows (depth depth' power : Nat) : Shadows clause.TrimsExpr
    (expressionWithin depth power) (expressionWithin depth' power) := by
  induction depth generalizing depth' power with
  | zero => exact .fail
  | succ depth ih =>
    cases depth' with
    | zero =>
      exact ⟨(expressionWith_shadows (ih depth) power).shrinks,
        fun _ => .of_none fun _ _ => not_yields_fail⟩
    | succ depth' => exact expressionWith_shadows (ih depth') power

theorem expressionOf_shadows (power : Nat) :
    Shadows clause.TrimsExpr (expressionOf power) (expressionOf power) :=
  .look_any fun _ _ => expressionWithin_shadows _ _ power

end ExprStep

end SelectRouting
