import SelectRouting.Proofs.QueryPassage

/-!
# Dialects extend the generic one

A dialect differs from the generic one at two places: behind `DISTINCT`, and behind the keys of
`ORDER BY`. Where the generic one goes on, no `ON` stands at the first, since no item begins with it,
and nothing but a semicolon at the second. So both go the same way through a query that the generic
one accepts (`AnalysisStep.select_of_generic`).
-/

namespace SelectRouting

/-- No keyword stands at the end of the input. -/
theorem Cursor.atKeyword?_of_atEnd {cursor : Cursor} (ended : cursor.atEnd = true)
    (words : List Keyword) : cursor.atKeyword? words = false := by
  have kind : cursor.kind = .endOfInput := by
    rw [atEnd, Token.isEof, beq_iff_eq] at ended
    exact ended
  rw [atKeyword?, kind]

namespace AnalysisStep
open Scan Step Cursor

variable {before after : Analysis} {dialect : Dialect}

section SharedReaders

theorem projection_eq_generic (plain : dialect.IsPlain) : projection dialect = projection .generic := by
  have round : itemRound dialect = itemRound .generic := by
    funext position
    unfold itemRound item
    rw [plain.itemWord]
    rfl
  unfold projection
  rw [round]

theorem orderBy_eq_generic (plain : dialect.IsPlain) : orderBy dialect = orderBy .generic := by
  unfold orderBy orderRound dialectOrderItem
  rw [plain.nullsPlacement]
  rfl

theorem bodyEnd_eq_generic (plain : dialect.IsPlain) : bodyEnd dialect = bodyEnd .generic := by
  unfold bodyEnd
  rw [plain.bodyEnd]
  rfl

end SharedReaders

/-- No item of a projection list begins with the word `ON`. -/
theorem kind_ne_on_of_item (noWord : dialect.itemWord = none)
    (lexed : Token.AreLexed before.cursor.rest) {position : Nat} {answer : Item}
    (answers : Yields (item dialect position) before answer after) :
    before.cursor.kind ≠ .keyword .ON := by
  intro on
  have noCall {function : AggregateFunction} : aggregateAt? before.cursor ≠ some function := by
    intro found
    rw [aggregateAt?, on] at found
    split at found
    · cases found
    · cases found
  cases (yields_item noWord).mp answers with
  | star stands _ =>
    obtain ⟨star, ⟨_, same, isStar⟩, moves⟩ := star_moves stands
    obtain rfl := List.singleton_inj.mp same
    have isOn : star.kind = .keyword .ON := by
      rw [← on, kind_eq_frontKind, moves.rest]
      rfl
    rcases isStar with symbol | quoted
    · rw [symbol] at isOn
      cases isOn
    · exact (lexed star (by simp [moves.rest])).ne_star_of_keyword isOn quoted
  | call _ found => exact noCall found
  | callInText _ found => exact noCall found
  | text _ _ starts _ =>
    rw [on] at starts
    cases starts

theorem kind_ne_on_of_projection (noWord : dialect.itemWord = none)
    (lexed : Token.AreLexed before.cursor.rest)
    (answers : Yields (projection dialect) before () after) :
    before.cursor.kind ≠ .keyword .ON := by
  have first {position : Nat} {between : Analysis} {round : Round Nat Unit}
      (answers : Yields (itemRound dialect position) before round between) :
      before.cursor.kind ≠ .keyword .ON := by
    obtain ⟨_, _, item, _⟩ := yields_itemRound.mp answers
    exact kind_ne_on_of_item noWord lexed item
  unfold projection at answers
  obtain ⟨_, _, ran, _⟩ := yields_bind.mp answers
  cases rounds_of_rounding ran with
  | done answers => exact first answers
  | next answers _ => exact first answers

/-- Where no `ON` stands behind it, every dialect reads `DISTINCT` alike. -/
theorem distinct_of_generic (noOn : after.cursor.kind ≠ .keyword .ON)
    (answers : Yields (distinct .generic) before () after) :
    Yields (distinct dialect) before () after := by
  obtain ⟨found, between, first, rest⟩ := yields_bind.mp answers
  refine yields_bind.mpr ⟨found, between, first, ?_⟩
  rcases yields_ite.mp rest with ⟨yes, rest⟩ | ⟨no, rest⟩
  · obtain ⟨_, marked, changed, rest⟩ := yields_bind.mp rest
    obtain ⟨_, rfl⟩ : () = () ∧ after = marked := yields_pure.mp rest
    refine yields_ite.mpr (.inl ⟨yes, yields_bind.mpr ⟨_, _, changed, ?_⟩⟩)
    by_cases accepted : dialect.distinctOn = true
    · have elsewhere : after.cursor.atKeyword? [.ON] = false := by
        rw [← Bool.not_eq_true, atKeyword?_iff]
        simpa using noOn
      refine yields_ite.mpr (.inl ⟨accepted, yields_bind.mpr ⟨false, after, ?_, rfl⟩⟩)
      exact yields_scan.mpr ⟨_, yields_skipWhen.mpr (.inr ⟨elsewhere, rfl, rfl⟩), rfl⟩
    · exact yields_ite.mpr (.inr ⟨accepted, rfl⟩)
  · exact yields_ite.mpr (.inr ⟨no, rest⟩)

/-- Every dialect reads alike up to the end of the projection list. -/
theorem head_of_generic (plain : dialect.IsPlain) (lexed : Token.AreLexed before.cursor.rest)
    (answers : Yields (head .generic) before () after) : Yields (head dialect) before () after := by
  obtain ⟨_, introduced, first, rest⟩ := yields_bind.mp answers
  obtain ⟨_, marked, second, projected⟩ := yields_bind.mp rest
  obtain ⟨cursor, scanned, rfl⟩ := yields_scan.mp first
  obtain ⟨_, _, passes⟩ := expectKeyword_passes scanned
  obtain ⟨_, _, _, reads⟩ := distinct_reads second
  have lexedItems : Token.AreLexed marked.cursor.rest :=
    (reads.lexed ((Analysis.Reads.move passes.toMoves).lexed lexed).2).2
  have noOn : marked.cursor.kind ≠ .keyword .ON :=
    kind_ne_on_of_projection rfl lexedItems projected
  rw [← projection_eq_generic plain] at projected
  exact yields_bind.mpr ⟨(), _, first,
    yields_bind.mpr ⟨(), _, distinct_of_generic noOn second, projected⟩⟩

/-- At the end of the input, or at a semicolon, no clause of any dialect begins. -/
theorem trailingClauses_unmoved (noWord : ∀ words, before.cursor.atKeyword? words = false) :
    Yields (trailingClauses dialect) before () before := by
  have skipped (words : List Keyword) : Yields (skipAnyKeyword words) before.cursor false before.cursor :=
    yields_skipWhen.mpr (.inr ⟨noWord words, rfl, rfl⟩)
  have noLimit : Yields limitClause before.cursor none before.cursor :=
    yields_bind.mpr ⟨false, _, skipped [.LIMIT], rfl⟩
  have noLock : Yields lockingRead before.cursor () before.cursor :=
    yields_bind.mpr ⟨false, _, skipped [.FOR], yields_bind.mpr ⟨false, _, skipped [.LOCK], rfl⟩⟩
  have noRound : Yields (limitRound none) before.cursor (.done none) before.cursor :=
    yields_bind.mpr ⟨false, _, skipped [.LIMIT], yields_bind.mpr ⟨false, _, skipped [.OFFSET], rfl⟩⟩
  have noLimits : Yields limitClauses before.cursor none before.cursor :=
    Step.yields_look_bind.mpr (yields_bind.mpr ⟨_, _, noRound, rfl⟩)
  unfold trailingClauses
  cases dialect.trailing with
  | none => exact rfl
  | limitAndLocking =>
    exact yields_bind.mpr ⟨none, _, yields_scan.mpr ⟨_, noLimit, rfl⟩,
      yields_bind.mpr ⟨(), before, rfl, yields_scan.mpr ⟨_, noLock, rfl⟩⟩⟩
  | limitAndOffset => exact yields_bind.mpr ⟨none, _, yields_scan.mpr ⟨_, noLimits, rfl⟩, rfl⟩

/-- Where only a semicolon is passed up to the end of the input, no keyword stands. -/
theorem noKeyword_of_ending {answer : Unit} (answers : Yields (do
      let _ ← skipSymbol .semicolon
      unless ← look (·.atEnd) do fail .endOfStatement
      change Statement.withDerivedColumns : AnalysisStep Unit) before answer after)
    (words : List Keyword) : before.cursor.atKeyword? words = false := by
  obtain ⟨found, between, first, rest⟩ := yields_bind.mp answers
  obtain ⟨cursor, scanned, rfl⟩ := yields_scan.mp first
  rw [Step.yields_look_bind] at rest
  rcases skipSymbol_cases scanned (by simp) with ⟨_, token, is, passes⟩ | ⟨_, _, rfl⟩
  · have kind : before.cursor.kind = .symbol .semicolon := by
      rw [kind_eq_frontKind, passes.rest]
      exact is
    rw [atKeyword?, kind]
  · rcases yields_ite.mp rest with ⟨atEnd, _⟩ | ⟨_, rest⟩
    · exact atKeyword?_of_atEnd atEnd words
    · exact absurd rest Step.not_yields_fail_bind

/-- A dialect goes through the same states as the generic one, and no row limit is recorded. -/
theorem select_of_generic (plain : dialect.IsPlain) (lexed : Token.AreLexed before.cursor.rest)
    (noLimit : before.statement.limit = none) (answers : Yields (select .generic) before () after) :
    Yields (select dialect) before () after ∧ after.statement.limit = none := by
  obtain @⟨middle, joined, filtered, grouped, ended, ordered, trailed, whole, tables, filters,
    groups, ends, orders, trails, ending⟩ := selectRun_of_yields answers
  obtain ⟨_, rfl⟩ : () = () ∧ trailed = ordered := yields_pure.mp trails
  constructor
  · have ends' : Yields (liftM (bodyEnd dialect) : AnalysisStep Unit) grouped () ended := by
      rwa [bodyEnd_eq_generic plain]
    have orders' : Yields (orderBy dialect) ended () trailed := by
      rwa [orderBy_eq_generic plain]
    exact SelectRun.yields ⟨head_of_generic plain lexed whole, tables, filters, groups, ends',
      orders', trailingClauses_unmoved (noKeyword_of_ending ending), ending⟩
  · have unlimitedHead : middle.statement.limit = none :=
      (head_keeps (P := fun s => s.limit = none)
        ⟨fun _ => id, fun _ _ => id, fun _ _ => id, fun _ _ => id⟩ rfl).of_yields whole noLimit
    have unlimited : trailed.statement.limit = none :=
      clauses_keep (P := fun s => s.limit = none)
        ⟨fun _ _ => id, fun _ _ => id, fun _ _ => id, fun _ _ kept _ => kept, fun _ _ kept _ => kept⟩
        unlimitedHead tables filters groups ends orders
    have closing : Keeps (fun s => s.limit = none) (do
        let _ ← skipSymbol .semicolon
        unless ← look (·.atEnd) do fail .endOfStatement
        change Statement.withDerivedColumns : AnalysisStep Unit) :=
      .bind .scan fun _ => .bind .scan fun _ =>
        .ite (.change fun _ => id) (.bind .fail fun _ => .change fun _ => id)
    exact closing.of_yields ending unlimited

end AnalysisStep

namespace Statement

/-- A query that the generic dialect accepts is accepted by every shipped dialect, with the same
statement and the same warnings, and the statement has no row limit. -/
theorem analyze_of_generic {text : String} {statement : Statement} {warnings : List Warning}
    {dialect : Dialect} (shipped : dialect ∈ Dialect.shipped)
    (accepted : analyze .generic text = (.ok statement, warnings)) :
    analyze dialect text = (.ok statement, warnings) ∧ statement.limit = none := by
  obtain ⟨opened, after, answers, rfl, rfl⟩ := analyze_ok accepted
  obtain ⟨answers', noLimit⟩ := AnalysisStep.select_of_generic (Dialect.isPlain_of_shipped shipped)
    (Token.areLexed_list text) rfl answers
  refine ⟨?_, noLimit⟩
  have ran : AnalysisStep.select dialect { cursor := { text, rest := Token.list text } } =
    (.ok (), after) := answers'
  rw [analyze, opened]
  dsimp only
  rw [ofCursor, ran]
  rfl

theorem analyze_postgres_of_generic :
    let text := "SELECT DISTINCT a, AVG(b) FROM t WHERE c = ? ORDER BY d, e + 1;"
    Dialect.postgres ∈ Dialect.shipped ∧ ∃ statement, statement.parameters = 1 ∧
      analyze .generic text = (.ok statement, [.orderItemDropped "e + 1"]) ∧
      analyze .postgres text = (.ok statement, [.orderItemDropped "e + 1"]) ∧
      statement.limit = none := by
  have shipped : Dialect.postgres ∈ Dialect.shipped := by simp [Dialect.shipped]
  let count : DerivedColumn := ⟨.count, "(b)", "AVG_DERIVED_COUNT_0"⟩
  let sum : DerivedColumn := ⟨.sum, "(b)", "AVG_DERIVED_SUM_0"⟩
  have accepted : analyze .generic "SELECT DISTINCT a, AVG(b) FROM t WHERE c = ? ORDER BY d, e + 1;" =
      (.ok
        { distinct := true
          items := [.plain "a" none, .aggregation ⟨.avg, "(b)", none, 2, [count, sum]⟩]
          tables := [⟨"t", none⟩]
          orderBy := [.column ⟨none, "d", .ascending, some "ORDER_BY_DERIVED_0"⟩]
          projectionEnd := 26
          parameters := 1
          edits := [.tableName 31 "t", .projection 26
            ["COUNT(b) AS AVG_DERIVED_COUNT_0", "SUM(b) AS AVG_DERIVED_SUM_0",
              "d AS ORDER_BY_DERIVED_0"]] },
        [.orderItemDropped "e + 1"]) := by
    decide +kernel
  obtain ⟨same, noLimit⟩ := analyze_of_generic shipped accepted
  exact ⟨shipped, _, rfl, accepted, same, noLimit⟩

end Statement

end SelectRouting
