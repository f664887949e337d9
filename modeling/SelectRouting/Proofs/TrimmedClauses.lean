import SelectRouting.Proofs.Grafted
import SelectRouting.Proofs.TrimmedReaders

/-!
# Clauses over a shorter text

The readers of the clauses follow themselves over a text that lacks the `OFFSET` clause at its end. The
statements are the same but for the end of the projection list, which may be the end of the shorter text
(`AnalysisStep.head_shadows`, `AnalysisStep.laterClauses_shadows`).
-/

namespace SelectRouting

namespace OffsetClause

/-- The analyses stand at the same place and have found the same, besides the end of the projection
list. -/
structure TrimsAnalysis (clause : OffsetClause) (state other : Analysis) : Prop where
  cursor : clause.Trims state.cursor other.cursor
  statement : other.statement =
    { state.statement with projectionEnd := other.statement.projectionEnd }

/-- The current token is passed in both texts, with what it records. -/
theorem TrimsAnalysis.behind {clause : OffsetClause} {before before' : Analysis}
    (start : clause.TrimsAnalysis before before') (some : before'.cursor.rest ≠ []) :
    clause.TrimsAnalysis before.behind before'.behind := by
  have alike : clause.Alike before.cursor before'.cursor := .inr ⟨start.cursor, some⟩
  have point : Token.ownerBefore before'.cursor.rest.tail before'.cursor.current =
      Token.ownerBefore before.cursor.rest.tail before.cursor.current := by
    have next := alike.eq_of_next (· == .symbol .dot) rfl
    rw [Cursor.kind_peek_one, Cursor.kind_peek_one] at next
    rw [Token.ownerBefore, Token.ownerBefore, alike.current, next]
  unfold Analysis.behind
  rw [alike.kind]
  refine ⟨?_, ?_⟩
  · dsimp only
    split
    · exact start.cursor.countParameter.advance some
    · exact start.cursor.advance some
  · dsimp only
    rw [point, start.statement]

end OffsetClause

namespace AnalysisStep
open Scan Step Cursor OffsetClause
variable {clause : OffsetClause}

instance (clause : OffsetClause) : Trimming clause clause.TrimsAnalysis :=
  ⟨TrimsAnalysis.cursor, fun before trims => ⟨trims, before.statement⟩⟩

section Basics

theorem statement_shadows {α : Type} {property : Statement → α}
    (same : ∀ (s : Statement) (stop : Nat), property { s with projectionEnd := stop } = property s) :
    Shadows clause.TrimsAnalysis (statement property) (statement property) where
  shrinks ran := by
    obtain ⟨_, rfl⟩ := yields_statement.mp ran
    exact le_rfl
  follows before answer answer' after after' ran ran' := by
    obtain ⟨rfl, rfl⟩ := yields_statement.mp ran
    obtain ⟨rfl, rfl⟩ := yields_statement.mp ran'
    refine .inl ⟨?_, before⟩
    rw [before.statement, same]

/-- The changes may differ in where the projection list ends. -/
theorem change_shadows {update update' : Statement → Statement}
    (same : ∀ (s : Statement) (stop : Nat), update' { s with projectionEnd := stop } =
      { update s with projectionEnd := (update' { s with projectionEnd := stop }).projectionEnd }) :
    Shadows clause.TrimsAnalysis (change update) (change update') where
  shrinks ran := by
    obtain rfl := yields_change.mp ran
    exact le_rfl
  follows before answer answer' after after' ran ran' := by
    obtain rfl := yields_change.mp ran
    obtain rfl := yields_change.mp ran'
    refine .inl ⟨rfl, before.cursor, ?_⟩
    dsimp only
    rw [before.statement]
    exact same _ _

theorem warn_shadows (warning : Warning) :
    Shadows clause.TrimsAnalysis (warn warning) (warn warning) where
  shrinks ran := by
    obtain rfl := yields_warn.mp ran
    exact le_rfl
  follows before answer answer' after after' ran ran' := by
    obtain rfl := yields_warn.mp ran
    obtain rfl := yields_warn.mp ran'
    exact .inl ⟨rfl, before.cursor, before.statement⟩

theorem reading_shadows {α : Type} {reader : ExprStep α}
    (shadows : Shadows clause.TrimsExpr reader reader) :
    Shadows clause.TrimsAnalysis (reading reader) (reading reader) where
  shrinks ran := by
    obtain ⟨inner, read, _, rfl⟩ := yields_reading.mp ran
    exact shadows.shrinks read
  follows {before before'} start answer answer' after after' ran ran' := by
    obtain ⟨inner, read, same, rfl⟩ := yields_reading.mp ran
    obtain ⟨inner', read', same', rfl⟩ := yields_reading.mp ran'
    have trims : clause.TrimsExpr { cursor := before.cursor } { cursor := before'.cursor } :=
      ⟨start.cursor, rfl⟩
    rcases shadows.follows trims _ _ _ _ read read' with ⟨value, trims⟩ | entered
    · refine .inl ⟨Prod.ext value ?_, trims.cursor, start.statement⟩
      rw [same, same', trims.qualifiers]
    · exact .inr entered

theorem addEdit_shadows (edit : Edit) :
    Shadows clause.TrimsAnalysis (addEdit edit) (addEdit edit) :=
  change_shadows fun _ _ => rfl

theorem addOwnerEdit_shadows (owner : Name) :
    Shadows clause.TrimsAnalysis (addOwnerEdit owner) (addOwnerEdit owner) :=
  .bind (statement_shadows fun _ _ => rfl) fun _ => .ite (addEdit_shadows _) (.pure _)

theorem addOwnerEdits_shadows (owners : List Name) :
    Shadows clause.TrimsAnalysis (owners.forM addOwnerEdit) (owners.forM addOwnerEdit) := by
  induction owners with
  | nil => exact .pure _
  | cons owner owners ih => exact .bind (addOwnerEdit_shadows owner) fun _ => ih

theorem expressionWithEdits_shadows :
    Shadows clause.TrimsAnalysis expressionWithEdits expressionWithEdits :=
  .bind (reading_shadows (ExprStep.expressionOf_shadows 0)) fun _ =>
    .bind (addOwnerEdits_shadows _) fun _ => .pure _

end Basics

section Projection

theorem plainItemRound_shadows (item : PlainItem) :
    Shadows clause.TrimsAnalysis (plainItemRound item) (plainItemRound item) where
  shrinks ran := by
    rcases yields_plainItemRound.mp ran with ⟨_, _, _, rfl⟩ | ⟨_, _, admits, _, rfl⟩
    · exact le_rfl
    · exact (passes_behind admits.inside).toMoves.length_le
  follows {before before'} start answer answer' after after' ran ran' := by
    by_cases none : before'.cursor.rest = []
    · have stands := start.cursor.kind_of_end none
      rcases yields_plainItemRound.mp ran with ⟨_, ends, _⟩ | ⟨_, _, admits, _, rfl⟩
      · rw [atTerminator, stands] at ends
        cases ends
      · exact .inr (start.cursor.entered_of_moves none (passes_behind admits.inside).toMoves (by simp))
    · have alike : clause.Alike before.cursor before'.cursor := .inr ⟨start.cursor, none⟩
      have ending : atTerminator before'.cursor = atTerminator before.cursor := by
        rw [atTerminator, atTerminator, alike.kind]
      rcases yields_plainItemRound.mp ran with
          ⟨outside, ends, rfl, rfl⟩ | ⟨goes, depth, admits, rfl, rfl⟩ <;>
        rcases yields_plainItemRound.mp ran' with
          ⟨outside', ends', rfl, rfl⟩ | ⟨goes', depth', admits', rfl, rfl⟩
      · exact .inl ⟨rfl, start⟩
      · rw [ending, ends] at goes'
        cases goes' outside
      · rw [← ending, ends'] at goes
        cases goes outside'
      · have deepens := admits'.deepens.deepen?
        rw [alike.current, admits.deepens.deepen?] at deepens
        cases deepens
        rw [alike.current]
        exact .inl ⟨rfl, start.behind none⟩

/-- All that is passed of an item ends where the tokens before the limit do. -/
theorem plainItemRounds_within {before after : Analysis} {item last : PlainItem} {limit : Nat}
    (ran : Rounds plainItemRound item before last after) (within : item.Within limit)
    (ahead : ∀ token ∈ before.cursor.rest, token.span.stop ≤ limit) : last.Within limit := by
  induction ran with
  | done answers =>
    rcases yields_plainItemRound.mp answers with ⟨_, _, same, _⟩ | ⟨_, _, _, next, _⟩
    · cases same
      exact within
    · cases next
  | next answers _ ih =>
    rcases yields_plainItemRound.mp answers with ⟨_, _, ended, _⟩ | ⟨_, depth, admits, next, rfl⟩
    · cases ended
    · cases next
      have passes := passes_behind admits.inside
      rw [passes.rest] at ahead
      exact ih (within.pass (ahead _ List.mem_cons_self))
        fun token member => ahead token (List.mem_cons_of_mem _ member)

/-- What is quoted of an item that does not end before it begins ends before the clause. -/
theorem plainItem_shadows (start : Nat) (afterValue : Bool) :
    Shadows clause.TrimsAnalysis (plainItem start afterValue) (plainItem start afterValue) where
  shrinks ran := by
    obtain ⟨_, _, _, _, _, _, _, reads⟩ := plainItem_reads ran
    exact reads.moves.length_le
  follows {before before'} trims answer answer' after after' ran ran' := by
    obtain ⟨item, between, stop, given, rounds, some, rfl, named⟩ := yields_plainItem.mp ran
    obtain ⟨item', between', stop', given', rounds', some', rfl, named'⟩ := yields_plainItem.mp ran'
    -- only the tokens that the shorter text has left are known to end before the clause
    have within : item'.Within (max clause.word.start start) := by
      refine plainItemRounds_within rounds' ⟨?_, by simp⟩ fun token member =>
        (trims.cursor.ahead token member).trans (Nat.le_max_left ..)
      rw [trims.cursor.previous]
      exact max_le_max_right _ trims.cursor.stop
    have quoted {after after' : Analysis} (trims : clause.TrimsAnalysis after after')
        (inside : stop' ≤ max clause.word.start start) :
        after'.cursor.source ⟨start, stop'⟩ = after.cursor.source ⟨start, stop'⟩ :=
      trims.cursor.source ((le_max_iff.mp inside).resolve_right (Nat.not_le.mpr some'))
    rw [trims.cursor.previous] at rounds'
    have passed := (Shadows.rounding plainItemRound_shadows _).follows trims _ _ _ _
      (yields_rounding_of_rounds rounds plainItemRound_shrinks)
      (yields_rounding_of_rounds rounds' plainItemRound_shrinks)
    have aliased : Shadows clause.TrimsAnalysis (liftM aliasName : AnalysisStep (Option String))
      (liftM aliasName) := .scan aliasName_shadows
    rcases passed with ⟨rfl, trims⟩ | entered
    · rcases named with ⟨token, found, rfl, rfl⟩ | ⟨none, rfl, reads⟩ <;>
        rcases named' with ⟨token', found', rfl, rfl⟩ | ⟨none', rfl, reads'⟩
      · cases found.symm.trans found'
        exact .inl ⟨by rw [quoted trims (within.aliasName _ found')], trims⟩
      · cases found.symm.trans none'
      · cases none.symm.trans found'
      · rcases aliased.follows trims _ _ _ _ reads reads' with ⟨rfl, trims⟩ | entered
        · exact .inl ⟨by rw [quoted trims within.stop], trims⟩
        · exact .inr entered
    · rcases named with ⟨_, _, rfl, _⟩ | ⟨_, _, reads⟩
      · exact .inr entered
      · exact .inr (aliased.entered reads entered)

theorem skipStar_shadows : Shadows clause.Trims
    (skipWhen fun cursor => cursor.at? (.symbol .star) || Text.stripQuotes cursor.lexeme == "*")
    (skipWhen fun cursor => cursor.at? (.symbol .star) || Text.stripQuotes cursor.lexeme == "*") := by
  have answered (isStar : Bool) : Shadows clause.Trims
      (if isStar then do advance; return true else return false : Scan Bool)
      (if isStar then do advance; return true else return false) :=
    .ite (.bind .advance fun _ => .pure _) (.pure _)
  refine look_bind_shadows (fun {cursor other} alike => ?_) fun {cursor other} trims none => ?_
  · rw [Cursor.at?, Cursor.at?, alike.kind, alike.lexeme]
    exact answered _
  · intro answer answer' after after' ran ran'
    have noStar : (other.at? (.symbol .star) || Text.stripQuotes other.lexeme == "*") = false := by
      simp [Cursor.at?, Cursor.kind, Cursor.lexeme, Cursor.current, Cursor.peek, none, Token.eof,
        TokenKind.sameShape, Text.stripQuotes]
    rw [noStar] at ran'
    rcases yields_ite.mp ran with ⟨_, ran⟩ | ⟨_, ran⟩
    · have more : Shadows clause.Trims (Pure.pure true) (Pure.pure true) := .pure _
      exact .inr (Shadows.entered_of_advance more trims none ran)
    · exact (Shadows.pure false).follows trims _ _ _ _ ran ran'

theorem item_shadows {dialect : Dialect} (noWord : dialect.itemWord = none) (position : Nat) :
    Shadows clause.TrimsAnalysis (item dialect position) (item dialect position) := by
  unfold item
  rw [noWord]
  dsimp only
  refine .bind (.scan skipStar_shadows) fun _ => .ite (.bind (.scan aliasName_shadows) fun _ => .pure _) ?_
  refine .look_cursor (fun {cursor other} alike => ?_) fun {before before'} _ _ none => ?_
  · have called : aggregateAt? other = aggregateAt? cursor := by
      rw [aggregateAt?, aggregateAt?, alike.kind,
        alike.eq_of_next (·.sameShape (.symbol .leftParen)) rfl]
    rw [called, alike.kind, alike.start]
    split
    · refine .bind .advance fun _ => .bind (.scan group_shadows) fun argument => ?_
      refine .look_bind (fun {cursor other} alike => ?_) fun {before before'} start trims none => ?_
      · rw [atItemEnd, atItemEnd, atTerminator, atTerminator, alike.kind]
        exact .ite (.bind (.scan aliasName_shadows) fun _ => .pure _) (plainItem_shadows _ _)
      · intro answer answer' after after' ran _
        have goes : atItemEnd (HasCursor.cursor before) = false := by
          rw [atItemEnd, atTerminator, trims.kind_of_end none]
          rfl
        rw [goes] at ran
        obtain ⟨text, named, _, _, some, _, _, reads⟩ := plainItem_reads ran
        exact .inr (trims.entered_of_moves none reads.moves
          (List.append_ne_nil_of_left_ne_nil (some (atTerminator_of_atItemEnd goes)) _))
    · exact .ite (plainItem_shadows _ _) .fail
  · refine .of_none fun answer after ran => ?_
    have stands : (HasCursor.cursor before').kind = .endOfInput := Trims.kind_of_none none
    have noCall : aggregateAt? (HasCursor.cursor before') = .none := by
      rw [aggregateAt?, stands]
      exact ite_self _
    rw [noCall, stands] at ran
    exact absurd ran not_yields_fail

theorem itemRound_shadows {dialect : Dialect} (noWord : dialect.itemWord = none) (position : Nat) :
    Shadows clause.TrimsAnalysis (itemRound dialect position) (itemRound dialect position) :=
  .bind (item_shadows noWord position) fun _ => .bind (change_shadows fun _ _ => rfl) fun _ =>
    .bind (.scan (skipSymbol_shadows _)) fun _ => .pure _

theorem distinct_shadows (dialect : Dialect) :
    Shadows clause.TrimsAnalysis (distinct dialect) (distinct dialect) := by
  unfold distinct
  refine .bind (.scan (skipAnyKeyword_shadows rfl)) fun _ => .ite ?_ ?_
  · refine .bind (change_shadows fun _ _ => rfl) fun _ => .ite ?_ (.pure _)
    exact .bind (.scan (skipKeyword_shadows rfl)) fun _ =>
      .ite (.bind (.scan group_shadows) fun _ => .pure _) (.pure _)
  · exact .bind (.scan (skipKeyword_shadows rfl)) fun _ => .pure _

/-- The projection list may end where the shorter text does. -/
theorem head_shadows {dialect : Dialect} (noWord : dialect.itemWord = none) :
    Shadows clause.TrimsAnalysis (head dialect) (head dialect) := by
  unfold head projection
  refine .bind (.scan (expectKeyword_shadows rfl)) fun _ => .bind (distinct_shadows dialect) fun _ => ?_
  exact .bind (.rounding (itemRound_shadows noWord) 1) fun _ => .look_any fun _ _ =>
    change_shadows fun _ _ => rfl

end Projection

section Sources

theorem source_shadows : Shadows clause.TrimsAnalysis source source := by
  unfold source
  refine .look_bind (fun {cursor other} alike => ?_) fun {before before'} _ _ none => ?_
  · rw [alike.current]
    split
    · refine .bind .advance fun _ => .bind (.scan (skipSymbol_shadows _)) fun _ => .ite ?_ ?_
      · exact .taking fun alike => by
          rw [alike.lexeme]
          exact .bind (.scan aliasName_shadows) fun _ => warn_shadows _
      · exact .bind (addEdit_shadows _) fun _ => .bind (.scan aliasName_shadows) fun _ =>
          change_shadows fun _ _ => rfl
    · exact .throw
    · exact .fail
  · rw [show (HasCursor.cursor before').current.kind = _ from Trims.kind_of_none none]
    exact .of_none fun _ _ => not_yields_fail

theorem joinRound_shadows : Shadows clause.TrimsAnalysis joinRound joinRound := by
  have side : Shadows clause.TrimsAnalysis joinSide joinSide := by
    refine .bind (reading_shadows (ExprStep.expressionOf_shadows _)) ?_
    rintro ⟨side, _⟩
    cases side with
    | property owner _ => exact addOwnerEdit_shadows owner
    | number | identifier | other => exact .pure _
  have equation : Shadows clause.TrimsAnalysis joinEquation joinEquation :=
    .bind side fun _ => .bind (.scan (expectSymbol_shadows _)) fun _ =>
      .bind side fun _ => .scan (skipKeyword_shadows rfl)
  unfold joinRound
  refine .bind (.scan join_shadows) fun _ => .ite ?_ (.pure _)
  refine .bind source_shadows fun _ => .bind (.scan (skipKeyword_shadows rfl)) fun _ => .ite ?_ ?_
  · exact .bind (.whileTrue equation) fun _ => .pure _
  · exact .bind (.scan (skipKeyword_shadows rfl)) fun _ =>
      .ite (.bind (.scan group_shadows) fun _ => .pure _) (.pure _)

theorem fromClause_shadows : Shadows clause.TrimsAnalysis fromClause fromClause :=
  .bind (.scan (skipKeyword_shadows rfl)) fun _ =>
    .ite (.bind source_shadows fun _ => .whileTrue joinRound_shadows) (.pure _)

end Sources

section Keys

theorem direction_shadows : Shadows clause.Trims direction direction :=
  .bind (skipKeyword_shadows rfl) fun _ => .ite (.pure _) <|
    .bind (skipKeyword_shadows rfl) fun _ => .pure _

theorem columnKey_shadows (owner : Option Name) (name : Name) (direction : Direction) :
    Shadows clause.TrimsAnalysis (columnKey owner name direction) (columnKey owner name direction) :=
  .bind (statement_shadows fun _ _ => rfl) fun _ => .pure _

theorem keyItem_shadows : Shadows clause.TrimsAnalysis keyItem keyItem := by
  unfold keyItem
  refine .look_bind (fun {cursor other} alike => ?_) fun _ _ none => .of_none fun answer after ran => ?_
  · rw [alike.start]
    exact .bind expressionWithEdits_shadows fun _ => .bind (.seen (isShared_quoted _)) fun _ =>
      .bind (.scan direction_shadows) fun _ => .pure _
  · obtain ⟨_, _, read, _⟩ := yields_bind.mp ran
    obtain ⟨inner, _, read, _⟩ := expressionWithEdits_cases read
    obtain ⟨depth, read⟩ := ExprStep.exists_expressionWith read
    unfold ExprStep.expressionWith at read
    rw [Step.yields_look_bind] at read
    obtain ⟨_, _, operand, _⟩ := yields_bind.mp read
    exact ExprStep.operand_none none operand

theorem groupRound_shadows : Shadows clause.TrimsAnalysis groupRound groupRound := by
  have item : Shadows clause.TrimsAnalysis groupItem groupItem := by
    refine .bind keyItem_shadows ?_
    rintro ⟨expr, direction, text⟩
    dsimp only
    split
    · exact .bind (columnKey_shadows _ _ _) fun _ => .pure _
    · exact .bind (columnKey_shadows _ _ _) fun _ => .pure _
    · exact .bind (warn_shadows _) fun _ => .pure _
  refine .bind item fun found => ?_
  split
  · exact .bind (change_shadows fun _ _ => rfl) fun _ => .scan (skipSymbol_shadows _)
  · exact .scan (skipSymbol_shadows _)

theorem orderRound_shadows {dialect : Dialect} (noNulls : dialect.nullsPlacement = false) :
    Shadows clause.TrimsAnalysis (orderRound dialect) (orderRound dialect) := by
  have item : Shadows clause.TrimsAnalysis orderItem orderItem := by
    refine .bind keyItem_shadows ?_
    rintro ⟨expr, direction, text⟩
    dsimp only
    split
    · exact .pure _
    · exact .bind (columnKey_shadows _ _ _) fun _ => .pure _
    · exact .bind (columnKey_shadows _ _ _) fun _ => .pure _
    · exact .bind (warn_shadows _) fun _ => .pure _
  have placed : Shadows clause.TrimsAnalysis (dialectOrderItem dialect) (dialectOrderItem dialect) := by
    refine .bind item fun found => ?_
    rw [noNulls]
    exact .pure _
  refine .bind placed fun found => ?_
  split
  · exact .bind (change_shadows fun _ _ => rfl) fun _ => .scan (skipSymbol_shadows _)
  · exact .scan (skipSymbol_shadows _)

end Keys

section Clauses

theorem condition_shadows : Shadows clause.TrimsAnalysis condition condition := by
  unfold condition
  have noted : Shadows clause.TrimsAnalysis (do
      let parameters ← look (·.parameters)
      change fun statement => { statement with parameters } : AnalysisStep Unit) (do
      let parameters ← look (·.parameters)
      change fun statement => { statement with parameters }) :=
    .bind (.seen isShared_parameters) fun _ => change_shadows fun _ _ => rfl
  refine .bind (statement_shadows fun _ _ => rfl) fun tables => .ite ?_ ?_
  · exact .bind (.scan (skipKeyword_shadows rfl)) fun _ =>
      .ite (.bind (reading_shadows (ExprStep.expressionOf_shadows 0)) fun _ => .pure _) (.pure _)
  · exact .bind (.scan (skipKeyword_shadows rfl)) fun _ =>
      .ite (.bind expressionWithEdits_shadows fun _ => noted) noted

theorem groupBy_shadows : Shadows clause.TrimsAnalysis groupBy groupBy := by
  unfold groupBy
  have having : Shadows clause.TrimsAnalysis (do
      if ← skipKeyword .HAVING then
        let _ ← expressionWithEdits : AnalysisStep Unit) (do
      if ← skipKeyword .HAVING then
        let _ ← expressionWithEdits) :=
    .bind (.scan (skipKeyword_shadows rfl)) fun _ =>
      .ite (.bind expressionWithEdits_shadows fun _ => .pure _) (.pure _)
  refine .bind (.scan (skipKeyword_shadows rfl)) fun _ => .ite ?_ having
  refine .bind (.scan (expectKeyword_shadows rfl)) fun _ => .bind (.whileTrue groupRound_shadows) fun _ => ?_
  exact .bind (.whileTrue (.scan (skipAnyKeyword_shadows rfl))) fun _ => having

theorem orderBy_shadows {dialect : Dialect} (noNulls : dialect.nullsPlacement = false) :
    Shadows clause.TrimsAnalysis (orderBy dialect) (orderBy dialect) :=
  .bind (.scan (skipKeyword_shadows rfl)) fun _ => .ite
    (.bind (.scan (expectKeyword_shadows rfl)) fun _ => .whileTrue (orderRound_shadows noNulls)) (.pure _)

theorem laterClauses_shadows {dialect : Dialect} (noNulls : dialect.nullsPlacement = false) :
    Shadows clause.TrimsAnalysis (laterClauses dialect) (laterClauses dialect) :=
  .bind fromClause_shadows fun _ => .bind condition_shadows fun _ => .bind groupBy_shadows fun _ =>
    orderBy_shadows noNulls

end Clauses

end AnalysisStep

end SelectRouting
