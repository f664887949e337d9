import SelectRouting.Proofs.FailingClauses
import SelectRouting.Proofs.QueryPassage

/-!
# Queries that are rejected

A query is rejected at a token that its reader came to (`AnalysisStep.select_rejects`). The tables are the
one part of it in which the error need not be about the token as such: a parenthesis is wrong where a
table is required, whatever follows it.
-/

namespace SelectRouting

/-- A table is required between the tokens `front`, with which a `FROM` clause begins, and the tokens
`behind`: it is the first one behind `FROM`, or a further one behind a join operator. -/
inductive Source.AwaitsTable (behind : List Token) : (front : List Token) → Prop where
  | first {word : Token} : word.kind = .keyword .FROM → AwaitsTable behind [word]
  | further {sources : List Source} {introducer : List Token} : sources ≠ [] → Source.Joined sources →
      Token.Fit Source.tokens Source.Fits sources (introducer ++ behind) →
      introducer.map Token.kind ∈ Scan.joinOperators →
        AwaitsTable behind (sources.flatMap Source.tokens ++ introducer)

/-- A table is required between the tokens `front`, with which a query begins, and the tokens `behind`:
the words behind `SELECT` and the projection list stand before the `FROM` clause. -/
inductive Query.AwaitsTable (dialect : Dialect) (behind : List Token) : (front : List Token) → Prop where
  | intro {select : Token} {words group tables : List Token} {first : Projected}
      {others : List Projected} : select.kind = .keyword .SELECT →
      Query.Modifies dialect words group
        (Token.frontKind ((first :: others).flatMap Projected.tokens ++ (tables ++ behind))) →
      first.comma = [] →
      (∀ item ∈ others, ∃ comma, item.comma = [comma] ∧ comma.kind = .symbol .comma) →
      Token.Fit Projected.tokens Projected.Fits (first :: others) (tables ++ behind) →
      Source.AwaitsTable behind tables →
        AwaitsTable dialect behind
          (select :: words ++ group ++ (first :: others).flatMap Projected.tokens ++ tables)

namespace Cursor

/-- The error is about a token from the cursor on, or about a parenthesis where a table is awaited between
the tokens before the parenthesis and those from it on. -/
inductive Rejects (awaited : (behind front : List Token) → Prop) (cursor : Cursor) : ParseError → Prop where
  | token {error : ParseError} : cursor.Blames error → Rejects awaited cursor error
  | table {front behind : List Token} {token : Token} : cursor.rest = front ++ token :: behind →
      token.kind = .symbol .leftParen → awaited (token :: behind) front →
        Rejects awaited cursor (.subquery token.span)

/-- An error behind some tokens is one from before them on, where the tokens complete what stands before
the missing table. -/
theorem Moves.rejects {awaited completed : (behind front : List Token) → Prop} {before after : Cursor}
    {passed : List Token} {error : ParseError} (moves : Moves before passed after)
    (completes : ∀ {front behind : List Token}, after.rest = front ++ behind → awaited behind front →
      completed behind (passed ++ front)) (rejects : after.Rejects awaited error) :
    before.Rejects completed error := by
  cases rejects with
  | token blames => exact .token (moves.blames blames)
  | table stands is awaits =>
    refine .table ?_ is (completes stands awaits)
    rw [moves.rest, stands, List.append_assoc]

end Cursor

namespace AnalysisStep
open Scan Step Cursor Analysis

variable {before after : Analysis} {error : ParseError} {dialect : Dialect}

theorem change_neverFails (update : Statement → Statement) : NeverFails (change update) :=
  ⟨fun fails => by cases fails⟩

theorem warn_neverFails (warning : Warning) : NeverFails (warn warning) :=
  ⟨fun fails => by cases fails⟩

section Tables

/-- Where a table is required, it is missing at the current token. -/
theorem source_rejects (fails : Fails source before error after) :
    before.cursor.Rejects (fun _ front => front = []) error := by
  unfold source at fails
  rw [Step.fails_look_bind] at fails
  dsimp only [cursor_analysis] at fails
  split at fails
  · refine absurd fails (NeverFails.absurd (.bind advance_neverFails.scan fun _ =>
      .bind (skipWhen_neverFails _).scan fun _ => .ite ?_ ?_))
    · exact .bind (look_neverFails _).scan fun _ => .bind advance_neverFails.scan fun _ =>
        .bind aliasName_neverFails.scan fun _ => warn_neverFails _
    · exact .bind (change_neverFails _) fun _ => .bind aliasName_neverFails.scan fun _ =>
        change_neverFails _
  · next is =>
    obtain ⟨rfl, _⟩ := fails_throw.mp fails
    obtain ⟨token, rest, tokens, named, current⟩ := exists_token is (by simp)
    have stands : before.cursor.rest = [] ++ token :: rest := tokens
    rw [current]
    exact .table stands named rfl
  · obtain ⟨_, failed, _⟩ := fails_onCursor.mp fails
    rw [(fails_fail.mp failed).1]
    exact .token (blames_unexpected _ _)

theorem joinCondition_orderly : Orderly (do
    if ← skipKeyword .ON then Step.whileTrue joinEquation
    else if ← skipKeyword .USING then
      let _ ← group
    return true : AnalysisStep Bool) :=
  (Orderly.scan (skipKeyword_orderly _)).bind fun _ => .ite
    ((Orderly.whileTrue joinEquation_orderly).bind fun _ => .pure _)
    ((Orderly.scan (skipKeyword_orderly _)).bind fun _ => .ite
      ((Orderly.scan group_orderly).bind fun _ => .pure _) (.pure _))

/-- A join is wrong in its operator or its condition, or its table is missing behind the operator. -/
theorem joinRound_rejects (lexed : Token.AreLexed before.cursor.rest)
    (fails : Fails joinRound before error after) :
    before.cursor.Rejects (fun _ front => front.map Token.kind ∈ joinOperators) error := by
  rcases fails_bind.mp fails with fails | ⟨joined, between, answers, fails⟩
  · exact .token (((Orderly.scan join_orderly).runs lexed).blames fails)
  obtain ⟨cursor, scanned, rfl⟩ := yields_scan.mp answers
  rcases join_cases scanned with ⟨rfl, introducer, passes, joins⟩ | ⟨rfl, rfl⟩
  · rcases fails_bind.mp fails with fails | ⟨_, middle, table, fails⟩
    · refine passes.toMoves.rejects ?_ (source_rejects fails)
      rintro _ _ _ rfl
      simpa using joins
    · obtain ⟨_, _, _, _, _, _, _, reads⟩ := source_reads table
      have behind := (reads.lexed (passes.lexed lexed)).2
      have blames := (joinCondition_orderly.runs behind).blames fails
      exact .token (passes.toMoves.blames (reads.moves.blames blames))
  · exact absurd fails not_fails_pure

/-- Joins are wrong in one that stands behind those that were read. -/
theorem joins_reject (lexed : Token.AreLexed before.cursor.rest) {between : Analysis}
    (reaches : Relation.ReflTransGen (fun before after => Yields joinRound before true after) before between)
    (fails : Fails joinRound between error after ∨ error = between.cursor.unexpected .endOfStatement) :
    before.cursor.Rejects (fun behind front => ∃ sources introducer,
      front = sources.flatMap Source.tokens ++ introducer ∧
      (∀ source ∈ sources, source.introducer.map Token.kind ∈ joinOperators) ∧
      Token.Fit Source.tokens Source.Fits sources (introducer ++ behind) ∧
      introducer.map Token.kind ∈ joinOperators) error := by
  -- By induction on the joins that were read: each is one more table before the missing one.
  induction reaches using Relation.ReflTransGen.head_induction_on with
  | refl =>
    rcases fails with fails | rfl
    · refine (Moves.refl _).rejects ?_ (joinRound_rejects lexed fails)
      intro front _ _ joins
      exact ⟨[], front, rfl, by simp, trivial, joins⟩
    · exact .token (blames_unexpected _ _)
  | head ran _ ih =>
    rcases joinRound_reads lexed ran with ⟨_, table, own, fits, _, reads⟩ | ⟨asked, _⟩
    · refine reads.moves.rejects ?_ (ih (reads.lexed lexed).2)
      rintro _ _ stands ⟨sources, introducer, rfl, joined, fit, joins⟩
      refine ⟨table :: sources, introducer, by simp, List.forall_mem_cons.mpr ⟨own, joined⟩,
        ⟨?_, fit⟩, joins⟩
      rw [stands] at fits
      simpa using fits
    · cases asked

/-- A `FROM` clause is wrong where a table is missing, or elsewhere. -/
theorem fromClause_rejects (lexed : Token.AreLexed before.cursor.rest)
    (fails : Fails fromClause before error after) : before.cursor.Rejects Source.AwaitsTable error := by
  rcases fails_bind.mp fails with fails | ⟨found, between, answers, fails⟩
  · exact absurd fails (skipWhen_neverFails _).scan.absurd
  obtain ⟨cursor, scanned, rfl⟩ := yields_scan.mp answers
  rcases skipKeyword_cases scanned with ⟨rfl, word, is, passes⟩ | ⟨rfl, _, rfl⟩
  · rcases fails_bind.mp fails with fails | ⟨_, middle, first, fails⟩
    · refine passes.toMoves.rejects ?_ (source_rejects fails)
      rintro _ _ _ rfl
      exact .first is
    · obtain ⟨_, reaches, failed⟩ := fails_whileTrue fails
      have introduced := Reads.move passes.toMoves
      have noEquations : Token.Fit Equation.tokens Equation.Fits [] ([] ++ middle.cursor.rest) := trivial
      obtain ⟨table, same, noCondition, fits, _, reads⟩ := joined_reads
        (by simp [is, Source.introducers]) introduced first noEquations trivial (.inl rfl) (by simp)
        (Reads.refl middle)
      refine reads.moves.rejects ?_ (joins_reject (reads.lexed lexed).2 reaches failed)
      rintro _ _ stands ⟨sources, introducer, rfl, joined, fit, joins⟩
      rw [← List.append_assoc, ← List.flatMap_cons]
      refine .further (by simp) ⟨by simp [same, is], noCondition, joined⟩ ⟨?_, fit⟩ joins
      rw [stands] at fits
      simpa using fits
  · exact absurd fails not_fails_pure

end Tables

section Query

/-- Reads what stands behind the tables of a query, and adds the derived columns. -/
def remainder (dialect : Dialect) : AnalysisStep Unit := do
  condition
  groupBy
  bodyEnd dialect
  orderBy dialect
  trailingClauses dialect
  let _ ← skipSymbol .semicolon
  unless ← look (·.atEnd) do fail .endOfStatement
  change Statement.withDerivedColumns

/-- The clauses behind the tables follow them in one run. -/
theorem select_eq (dialect : Dialect) : select dialect = (do
    head dialect
    fromClause
    remainder dialect) := by
  unfold select body fromClause remainder
  simp only [bind_assoc]
  congr 1
  funext _
  congr 1
  funext found
  cases found <;> simp

theorem bodyEnd_orderly (plain : dialect.IsPlain) : Orderly (bodyEnd dialect) := by
  unfold bodyEnd
  rw [plain.bodyEnd]
  exact rejectSetOperation_orderly

theorem remainder_orderly (plain : dialect.IsPlain) : Orderly (remainder dialect) :=
  condition_orderly.bind fun _ => groupBy_orderly.bind fun _ =>
    (Orderly.scan (bodyEnd_orderly plain)).bind fun _ => (orderBy_orderly dialect).bind fun _ =>
      (trailingClauses_orderly dialect).bind fun _ =>
        (Orderly.scan (skipSymbol_orderly (by simp))).bind fun _ => Orderly.look.bind fun _ =>
          .ite (change_orderly _) .fail_bind

/-- A query is rejected at a token that its reader came to, or where a table is missing. -/
theorem select_rejects (plain : dialect.IsPlain) (lexed : Token.AreLexed before.cursor.rest)
    (fails : Fails (select dialect) before error after) :
    before.cursor.Rejects (Query.AwaitsTable dialect) error := by
  rw [select_eq] at fails
  rcases fails_bind.mp fails with fails | ⟨_, middle, whole, fails⟩
  · exact .token (((head_orderly plain.itemWord).runs lexed).blames fails)
  obtain ⟨select, words, group, items, isSelect, modifies, ⟨first, others, rfl, noComma, commas⟩, fit, _, _,
    moves, _⟩ := head_reads plain whole
  rw [moves.rest] at lexed
  refine moves.rejects ?_ (?_ : middle.cursor.Rejects Source.AwaitsTable error)
  · intro front behind stands awaits
    rw [stands] at fit modifies
    exact .intro isSelect modifies noComma commas fit awaits
  rcases fails_bind.mp fails with fails | ⟨_, joined, tables, fails⟩
  · exact fromClause_rejects lexed.right fails
  · obtain ⟨sources, _, _, _, reads⟩ := fromClause_reads lexed.right tables
    have blames := ((remainder_orderly plain).runs (reads.lexed lexed.right).2).blames fails
    exact .token (reads.moves.blames blames)

end Query

end AnalysisStep

end SelectRouting
