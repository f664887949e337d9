import Mathlib.Data.List.Forall2
import SelectRouting.Proofs.ClosingPassage
import SelectRouting.Proofs.ProjectionPassage
import SelectRouting.Proofs.SourcePassage
import SelectRouting.Proofs.StatementKept

/-!
# What the analysis of a query passes

A query that is accepted falls into its parts, and the edits of its statement are those of the parts
(`Statement.exists_query`).
-/

namespace SelectRouting

/-- The dialect has none of the choices that no shipped dialect makes: a word before the items,
the placement of nulls, and text behind the query that is passed. -/
structure Dialect.IsPlain (dialect : Dialect) : Prop where
  itemWord : dialect.itemWord = none
  nullsPlacement : dialect.nullsPlacement = false
  bodyEnd : dialect.bodyEnd = .rejectSetOperation

theorem Dialect.isPlain_of_shipped {dialect : Dialect} (shipped : dialect ∈ Dialect.shipped) :
    dialect.IsPlain := by
  simp only [Dialect.shipped, List.mem_cons, List.not_mem_nil, or_false] at shipped
  rcases shipped with rfl | rfl | rfl <;> exact ⟨rfl, rfl, rfl⟩

namespace AnalysisStep
open Scan Step Cursor Analysis

variable {before after : Analysis} {dialect : Dialect}

section ProjectionList

/-- An item is passed, and the comma behind it when another item follows. -/
theorem itemRound_reads (noWord : dialect.itemWord = none) {position : Nat}
    {answer : Round Nat Unit} (answers : Yields (itemRound dialect position) before answer after) :
    ∃ (item : Projected) (value : Item), item.comma = [] ∧ item.Guarded ∧
      item.Tells before.cursor.text value ∧
      after.statement.items = before.statement.items ++ [value] ∧
      ((item.Fits after.cursor.rest ∧ Reads before item.tokens (Token.owners item.text) [] after ∧
          answer = .done ()) ∨
        ∃ comma : Token, comma.kind = .symbol .comma ∧ item.Fits (comma :: after.cursor.rest) ∧
          Reads before (item.tokens ++ [comma]) (Token.owners item.text) [] after ∧
          answer = .next (position + 1)) := by
  obtain ⟨value, between, first, outcome⟩ := yields_itemRound.mp answers
  have items : between.statement.items = before.statement.items :=
    (item_keeps (P := fun s => s.items = before.statement.items) (fun _ _ => id) noWord
      position).of_yields first rfl
  obtain ⟨item, noComma, fits, guarded, tells, reads⟩ := item_reads noWord first
  refine ⟨item, value, noComma, guarded, tells, ?_⟩
  rcases outcome with ⟨_, rfl, rfl⟩ | ⟨stands, rfl, rfl⟩
  · exact ⟨congrArg (· ++ [value]) items, .inl ⟨fits,
      ⟨reads.moves, reads.edits, reads.tables, reads.projectionEnd⟩, rfl⟩⟩
  · obtain ⟨comma, is, _, passes⟩ := passes_advance stands (by simp) (by simp)
    refine ⟨congrArg (· ++ [value]) items, .inr ⟨comma, is, ?_, ?_, rfl⟩⟩
    · rw [passes.rest] at fits
      exact fits
    · have both := reads.trans (Reads.move passes.toMoves)
      simp only [List.append_nil] at both
      exact ⟨both.moves, both.edits, both.tables, both.projectionEnd⟩

theorem itemRound_shrinks (noWord : dialect.itemWord = none) {position following : Nat}
    (answers : Yields (itemRound dialect position) before (.next following) after) :
    after.cursor.rest.length < before.cursor.rest.length := by
  obtain ⟨_, _, _, _, _, _, ⟨_, _, ended⟩ | ⟨_, _, _, reads, _⟩⟩ := itemRound_reads noWord answers
  · cases ended
  · rw [reads.moves.rest, List.length_append, List.length_append, List.length_singleton]
    omega

/-- The items of the projection list are passed up to the first token behind them, and added to the
statement. -/
theorem items_read (noWord : dialect.itemWord = none) {position : Nat}
    {answer : Unit} (ran : Rounds (itemRound dialect) position before answer after) :
    ∃ (first : Projected) (rest : List Projected), first.comma = [] ∧
      (∀ item ∈ rest, ∃ comma, item.comma = [comma] ∧ comma.kind = .symbol .comma) ∧
      Token.Fit Projected.tokens Projected.Fits (first :: rest) after.cursor.rest ∧
      (∀ item ∈ first :: rest, item.Guarded) ∧
      (∃ values, after.statement.items = before.statement.items ++ values ∧
        List.Forall₂ (Projected.Tells before.cursor.text) (first :: rest) values) ∧
      Reads before ((first :: rest).flatMap Projected.tokens)
        ((first :: rest).flatMap fun item => Token.owners item.text) [] after := by
  induction ran with
  | done answers =>
    obtain ⟨first, value, noComma, guarded, tells, added, ⟨fits, reads, _⟩ | ⟨_, _, _, _, next⟩⟩ :=
      itemRound_reads noWord answers
    · exact ⟨first, [], noComma, by simp, ⟨by simpa using fits, trivial⟩, by simpa using guarded,
        ⟨[value], added, .cons tells .nil⟩, by simpa using reads⟩
    · cases next
  | next answers _ ih =>
    obtain ⟨first, value, noComma, guarded, tells, added,
      ⟨_, _, ended⟩ | ⟨comma, is, fits, reads, _⟩⟩ := itemRound_reads noWord answers
    · cases ended
    · obtain ⟨second, rest, noSecond, commas, fit, others, ⟨values, more, told⟩, behind⟩ := ih
      have tokens : ({ second with comma := [comma] } : Projected).tokens =
          comma :: second.tokens := by
        simp [Projected.tokens, noSecond]
      obtain ⟨guardedSecond, guardedRest⟩ := List.forall_mem_cons.mp others
      have allGuarded : ∀ item ∈ first :: { second with comma := [comma] } :: rest, item.Guarded :=
        List.forall_mem_cons.mpr
          ⟨guarded, List.forall_mem_cons.mpr ⟨guardedSecond.withComma [comma], guardedRest⟩⟩
      refine ⟨first, { second with comma := [comma] } :: rest, noComma, ?_, ⟨?_, ?_, fit.2⟩, allGuarded,
        ⟨value :: values, ?_, ?_⟩, ?_⟩
      · intro item member
        rcases List.mem_cons.mp member with rfl | member
        · exact ⟨comma, rfl, is⟩
        · exact commas item member
      · rw [behind.moves.rest] at fits
        rw [List.flatMap_cons, tokens]
        simpa using fits
      · exact ⟨fit.1.call, fit.1.text, fit.1.some, fit.1.named⟩
      · rw [more, added, List.append_assoc, List.singleton_append]
      · rw [reads.moves.text] at told
        cases told with
        | cons toldSecond toldRest => exact .cons tells (.cons (toldSecond.withComma [comma]) toldRest)
      · have both := reads.trans behind
        rw [List.flatMap_cons, List.flatMap_cons, List.flatMap_cons, List.flatMap_cons, tokens]
        rw [List.flatMap_cons, List.flatMap_cons] at both
        simpa using both

end ProjectionList

/-- The words behind `SELECT` are passed, and the group of `DISTINCT ON`. -/
theorem distinct_reads {answer : Unit} (answers : Yields (distinct dialect) before answer after) :
    ∃ words group, Query.Modifies dialect words group after.cursor.kind ∧
      Reads before (words ++ group) [] [] after := by
  unfold distinct at answers
  obtain ⟨found, between, first, rest⟩ := yields_bind.mp answers
  obtain ⟨cursor, scanned, rfl⟩ := yields_scan.mp first
  rcases skipAnyKeyword_cases scanned with ⟨rfl, word, among, token, is, passes⟩ | ⟨rfl, _, rfl⟩
  · rw [if_pos rfl] at rest
    obtain ⟨_, _, changed, rest⟩ := yields_bind.mp rest
    obtain rfl := yields_change.mp changed
    have isDistinct : token.kind = .keyword .DISTINCT ∨ token.kind = .keyword .DISTINCTROW := by
      simpa [is] using among
    have reads : Reads before [token] [] [] { before with
        cursor, statement := { before.statement with distinct := true } } :=
      ⟨passes.toMoves, by simp, by simp, rfl⟩
    rcases yields_ite.mp rest with ⟨accepted, rest⟩ | ⟨_, rest⟩
    · obtain ⟨found, _, second, rest⟩ := yields_bind.mp rest
      obtain ⟨further, scanned, rfl⟩ := yields_scan.mp second
      rcases skipKeyword_cases scanned with ⟨rfl, on, isOn, more⟩ | ⟨rfl, _, rfl⟩
      · rw [if_pos rfl] at rest
        obtain ⟨_, _, grouped, rest⟩ := yields_bind.mp rest
        obtain ⟨_, rfl⟩ := yields_pure.mp rest
        obtain ⟨last, scanned, rfl⟩ := yields_scan.mp grouped
        have upTo := reads.trans (Reads.move more.toMoves)
        rcases group_cases scanned with ⟨noGroup, _, rfl⟩ | ⟨group, closing, most, _⟩
        · exact ⟨[token, on], [], .distinctOn isDistinct accepted isOn (.inr ⟨rfl, noGroup⟩), upTo⟩
        · exact ⟨[token, on], group, .distinctOn isDistinct accepted isOn (.inl closing),
            upTo.trans (Reads.move most.toMoves)⟩
      · obtain ⟨_, rfl⟩ := yields_pure.mp rest
        exact ⟨[token], [], .distinct isDistinct, reads⟩
    · obtain ⟨_, rfl⟩ := yields_pure.mp rest
      exact ⟨[token], [], .distinct isDistinct, reads⟩
  · rw [if_neg Bool.false_ne_true] at rest
    obtain ⟨_, _, second, rest⟩ := yields_bind.mp rest
    obtain ⟨_, rfl⟩ := yields_pure.mp rest
    obtain ⟨cursor, scanned, rfl⟩ := yields_scan.mp second
    rcases skipKeyword_cases scanned with ⟨_, token, is, passes⟩ | ⟨_, _, rfl⟩
    · exact ⟨[token], [], .all is, Reads.move passes.toMoves⟩
    · exact ⟨[], [], .absent, .refl _⟩

/-- The head of a query is `SELECT`, the words behind it, and the items. -/
theorem head_cases {answer : Unit} (answers : Yields (head dialect) before answer after) :
    ∃ token cursor opening last, Passes before.cursor [token] cursor ∧
      token.kind = .keyword .SELECT ∧
      Yields (distinct dialect) { before with cursor } () opening ∧
      Rounds (itemRound dialect) 1 opening () last ∧
      after = { last with statement := { last.statement with projectionEnd := last.cursor.start } } := by
  obtain ⟨_, _, first, rest⟩ := yields_bind.mp answers
  obtain ⟨cursor, scanned, rfl⟩ := yields_scan.mp first
  obtain ⟨token, is, passes⟩ := expectKeyword_passes scanned
  obtain ⟨_, opening, second, projected⟩ := yields_bind.mp rest
  unfold projection at projected
  obtain ⟨_, last, ran, noted⟩ := yields_bind.mp projected
  rw [Step.yields_look_bind] at noted
  exact ⟨token, cursor, opening, last, passes, is, second, rounds_of_rounding ran,
    yields_change.mp noted⟩

/-- The head of a query is passed, and the end of the projection list noted. -/
theorem head_reads (plain : dialect.IsPlain) {answer : Unit}
    (answers : Yields (head dialect) before answer after) :
    ∃ select words group items, select.kind = .keyword .SELECT ∧
      Query.Modifies dialect words group
        (Token.frontKind (items.flatMap Projected.tokens ++ after.cursor.rest)) ∧
      (∃ first rest, items = first :: rest ∧ first.comma = [] ∧
        ∀ item ∈ rest, ∃ comma, item.comma = [comma] ∧ comma.kind = .symbol .comma) ∧
      Token.Fit Projected.tokens Projected.Fits items after.cursor.rest ∧
      (∀ item ∈ items, item.Guarded) ∧
      (∃ values, after.statement.items = before.statement.items ++ values ∧
        List.Forall₂ (Projected.Tells before.cursor.text) items values) ∧
      Moves before.cursor (select :: words ++ group ++ items.flatMap Projected.tokens)
        after.cursor ∧
      after.statement.edits = before.statement.edits ++
        (items.flatMap fun item => Token.owners item.text).map Token.edit ∧
      after.statement.tables = before.statement.tables ∧
      after.statement.projectionEnd = after.cursor.start := by
  obtain ⟨token, cursor, opening, last, passes, is, second, ran, rfl⟩ := head_cases answers
  obtain ⟨words, group, modifies, reads⟩ := distinct_reads second
  obtain ⟨item, items, noComma, commas, fit, guarded, ⟨values, added, told⟩, more⟩ :=
    items_read plain.itemWord ran
  have kept : opening.statement.items = before.statement.items :=
    (distinct_keeps (P := fun s => s.items = before.statement.items) (fun _ => id)
      dialect).of_yields second rfl
  rw [reads.moves.text, passes.text] at told
  rw [kind_eq_frontKind, more.moves.rest] at modifies
  have whole := ((Reads.move passes.toMoves).trans reads).trans more
  exact ⟨token, words, group, item :: items, is, modifies, ⟨item, items, rfl, noComma, commas⟩, fit,
    guarded, ⟨values, by rw [← kept, ← added], told⟩, by simpa using whole.moves,
    by simpa using whole.edits, by simpa using whole.tables, rfl⟩

/-- Reads the `FROM` clause, if one stands here. -/
def fromClause : AnalysisStep Unit := do
  if ← skipKeyword .FROM then sources

/-- The tables behind `FROM` are passed, if it stands here. -/
theorem fromClause_reads {answer : Unit} (lexed : Token.AreLexed before.cursor.rest)
    (answers : Yields fromClause before answer after) :
    ∃ sources : List Source, Source.Joined sources ∧
      Token.Fit Source.tokens Source.Fits sources after.cursor.rest ∧
      (∀ source ∈ sources, source.Guarded) ∧ Reads before (sources.flatMap Source.tokens)
        (Source.allAnchors before.statement.tables sources) (sources.flatMap Source.tables)
        after := by
  obtain ⟨found, between, first, rest⟩ := yields_bind.mp answers
  obtain ⟨cursor, scanned, rfl⟩ := yields_scan.mp first
  rcases skipKeyword_cases scanned with ⟨rfl, token, is, passes⟩ | ⟨rfl, _, rfl⟩
  · have introduced := Reads.move passes.toMoves
    rw [if_pos rfl] at rest
    exact sources_read is introduced (introduced.lexed lexed).2 rest
  · rw [if_neg Bool.false_ne_true] at rest
    obtain ⟨_, rfl⟩ := yields_pure.mp rest
    exact ⟨[], trivial, trivial, by simp, .refl _⟩

/-- No shipped dialect passes text behind the query. -/
theorem bodyEnd_unmoved (plain : dialect.IsPlain) {answer : Unit}
    (answers : Yields (liftM (bodyEnd dialect) : AnalysisStep Unit) before answer after) :
    after = before := by
  obtain ⟨cursor, scanned, rfl⟩ := yields_scan.mp answers
  rw [bodyEnd, plain.bodyEnd] at scanned
  obtain ⟨token, _, looked, scanned⟩ := yields_bind.mp scanned
  obtain ⟨rfl, rfl⟩ := Scan.yields_look.mp looked
  split at scanned
  · rcases yields_ite.mp scanned with ⟨_, failed⟩ | ⟨_, rest⟩
    · exact absurd failed not_yields_throw
    · obtain ⟨_, rfl⟩ := yields_pure.mp rest
      rfl
  · obtain ⟨_, rfl⟩ := yields_pure.mp scanned
    rfl

section Ending
variable {answer : Unit}
  (answers : Yields (do
    let _ ← skipSymbol .semicolon
    unless ← look (·.atEnd) do fail .endOfStatement
    change Statement.withDerivedColumns : AnalysisStep Unit) before answer after)
include answers

/-- At the end of the text the derived columns are added. -/
theorem ending_cases :
    ∃ found last, Yields (Scan.skipSymbol .semicolon) before.cursor found last ∧ last.atEnd = true ∧
      after.statement = before.statement.withDerivedColumns := by
  obtain ⟨found, between, first, rest⟩ := yields_bind.mp answers
  obtain ⟨last, scanned, rfl⟩ := yields_scan.mp first
  rw [Step.yields_look_bind] at rest
  rcases yields_ite.mp rest with ⟨atEnd, rest⟩ | ⟨_, rest⟩
  · obtain rfl := yields_change.mp rest
    exact ⟨found, last, scanned, atEnd, rfl⟩
  · exact absurd rest Step.not_yields_fail_bind

/-- No token but a semicolon is left at the end. -/
theorem ending_left (lexed : Token.AreLexed before.cursor.rest) : before.cursor.rest = [] ∨
    ∃ mark : Token, mark.kind = .symbol .semicolon ∧ before.cursor.rest = [mark] := by
  obtain ⟨_, last, scanned, atEnd, _⟩ := ending_cases answers
  have ended (lexed : Token.AreLexed last.rest) : last.rest = [] := by
    cases left : last.rest with
    | nil => rfl
    | cons token others =>
      rw [left] at lexed
      have inside := (lexed token List.mem_cons_self).kind_ne_endOfInput
      simp [Cursor.atEnd, Token.isEof, Cursor.current, Cursor.peek, left, inside] at atEnd
  rcases skipSymbol_cases scanned (by simp) with ⟨_, mark, is, passes⟩ | ⟨_, _, rfl⟩
  · rw [passes.rest] at lexed ⊢
    rw [ended lexed.right]
    exact .inr ⟨mark, is, rfl⟩
  · exact .inl (ended lexed)

theorem ending_closes (lexed : Token.AreLexed before.cursor.rest) :
    before.cursor.rest ∈ 1 + Closing.mark .semicolon := by
  rcases ending_left answers lexed with none | ⟨mark, is, single⟩
  · exact .inl none
  · exact .inr ⟨mark, single, is⟩

end Ending

/-- The clauses behind the tables are passed in their order. -/
theorem clauses_read (plain : dialect.IsPlain) {filtered grouped ordered trailed : Analysis}
    (filters : Yields condition before () filtered) (groups : Yields groupBy filtered () grouped)
    (orders : Yields (orderBy dialect) grouped () ordered)
    (trails : Yields (trailingClauses dialect) ordered () trailed) :
    PassesClauses Piece.clauses before ordered ∧
      Closes (Closing.trailing dialect.trailing) ordered trailed := by
  refine ⟨?_, trailingClauses_closes trails⟩
  have grouped := (condition_passes filters).trans (groupBy_passes groups)
  rw [← mul_assoc] at grouped
  exact grouped.trans (orderBy_passes plain.nullsPlacement orders)

/-- A run over a query goes through its clauses in their order. -/
inductive SelectRun (dialect : Dialect) (before after : Analysis) : Prop where
  | intro {middle joined filtered grouped ended ordered trailed : Analysis} :
      Yields (head dialect) before () middle → Yields fromClause middle () joined →
        Yields condition joined () filtered → Yields groupBy filtered () grouped →
        Yields (liftM (bodyEnd dialect) : AnalysisStep Unit) grouped () ended →
        Yields (orderBy dialect) ended () ordered →
        Yields (trailingClauses dialect) ordered () trailed →
        Yields (do
          let _ ← skipSymbol .semicolon
          unless ← look (·.atEnd) do fail .endOfStatement
          change Statement.withDerivedColumns : AnalysisStep Unit) trailed () after →
        SelectRun dialect before after

theorem selectRun_of_yields {answer : Unit} (answers : Yields (select dialect) before answer after) :
    SelectRun dialect before after := by
  obtain ⟨_, _, body, behind⟩ := yields_bind.mp answers
  obtain ⟨_, middle, whole, rest⟩ := yields_bind.mp body
  obtain ⟨joined, tables, rest⟩ : ∃ joined, Yields fromClause middle () joined ∧
      Yields (do condition; groupBy; liftM (bodyEnd dialect) : AnalysisStep Unit) joined () _ := by
    obtain ⟨found, between, introduced, rest⟩ := yields_bind.mp rest
    rcases yields_ite.mp rest with ⟨yes, rest⟩ | ⟨no, rest⟩
    · obtain ⟨_, joined, tables, rest⟩ := yields_bind.mp rest
      exact ⟨joined, yields_bind.mpr ⟨_, _, introduced, yields_ite.mpr (.inl ⟨yes, tables⟩)⟩, rest⟩
    · exact ⟨between, yields_bind.mpr ⟨_, _, introduced, yields_ite.mpr (.inr ⟨no, rfl⟩)⟩, rest⟩
  obtain ⟨_, filtered, filters, rest⟩ := yields_bind.mp rest
  obtain ⟨_, grouped, groups, ended⟩ := yields_bind.mp rest
  obtain ⟨_, ordered, orders, behind⟩ := yields_bind.mp behind
  obtain ⟨_, trailed, trails, ending⟩ := yields_bind.mp behind
  exact ⟨whole, tables, filters, groups, ended, orders, trails, ending⟩

/-- A run through the clauses of a query in their order is a run over the query. -/
theorem SelectRun.yields (run : SelectRun dialect before after) :
    Yields (select dialect) before () after := by
  obtain @⟨_, joined, _, _, ended, _, _, head, tables, filters, groups, ends, orders, trails,
    ending⟩ := run
  refine yields_bind.mpr ⟨(), _, yields_bind.mpr ⟨(), _, head, ?_⟩,
    yields_bind.mpr ⟨(), _, orders, yields_bind.mpr ⟨(), _, trails, ending⟩⟩⟩
  have clauses : Yields (do condition; groupBy; liftM (bodyEnd dialect) : AnalysisStep Unit) joined
      () ended :=
    yields_bind.mpr ⟨(), _, filters, yields_bind.mpr ⟨(), _, groups, ends⟩⟩
  obtain ⟨found, between, introduced, sourced⟩ := yields_bind.mp tables
  refine yields_bind.mpr ⟨found, between, introduced, ?_⟩
  rcases yields_ite.mp sourced with ⟨yes, sourced⟩ | ⟨no, sourced⟩
  · exact yields_ite.mpr (.inl ⟨yes, yields_bind.mpr ⟨(), _, sourced, clauses⟩⟩)
  · obtain ⟨_, rfl⟩ := yields_pure.mp sourced
    exact yields_ite.mpr (.inr ⟨no, clauses⟩)

/-- What the records of the clauses keep holds up to the row limit. -/
theorem clauses_keep {P : Statement → Prop} (kept : KeptByClauses P)
    {middle joined filtered grouped ended ordered : Analysis} (start : P middle.statement)
    (tables : Yields fromClause middle () joined) (filters : Yields condition joined () filtered)
    (groups : Yields groupBy filtered () grouped)
    (ends : Yields (liftM (bodyEnd dialect) : AnalysisStep Unit) grouped () ended)
    (orders : Yields (orderBy dialect) ended () ordered) : P ordered.statement := by
  have sourced : Keeps P fromClause :=
    .bind .scan fun _ => .ite (sources_keeps kept) (.pure fun _ => id)
  have joinedKeeps : P joined.statement := sourced.of_yields tables start
  have filteredKeeps : P filtered.statement := (condition_keeps kept).of_yields filters joinedKeeps
  have groupedKeeps : P grouped.statement := (groupBy_keeps kept).of_yields groups filteredKeeps
  exact (orderBy_keeps kept dialect).of_yields orders (Ensures.scan.of_yields ends groupedKeeps)

/-- Behind the projection list the items stay, and the aliases of the keys are those that the items
give. -/
theorem clauses_resolve {middle joined filtered grouped ended ordered trailed : Analysis}
    (noKeys : middle.statement.columnKeys = []) (tables : Yields fromClause middle () joined)
    (filters : Yields condition joined () filtered) (groups : Yields groupBy filtered () grouped)
    (ends : Yields (liftM (bodyEnd dialect) : AnalysisStep Unit) grouped () ended)
    (orders : Yields (orderBy dialect) ended () ordered)
    (trails : Yields (trailingClauses dialect) ordered () trailed) :
    trailed.statement.Resolves middle.statement.items middle.statement.containsStar := by
  have start : middle.statement.Resolves middle.statement.items middle.statement.containsStar :=
    ⟨rfl, rfl, by simp [noKeys]⟩
  refine (trailingClauses_keeps ?_ dialect).of_yields trails
    (clauses_keep kept_resolves start tables filters groups ends orders)
  exact fun _ _ holds => ⟨holds.items, holds.containsStar, holds.keys⟩

/-- A query that is accepted falls into its parts. -/
theorem select_reads (plain : dialect.IsPlain) {answer : Unit}
    (none : before.statement.tables = []) (noKeys : before.statement.columnKeys = [])
    (noItems : before.statement.items = []) (lexed : Token.AreLexed before.cursor.rest)
    (answers : Yields (select dialect) before answer after) :
    ∃ (query : Query) (middle : Analysis) (parsed : Statement),
      query.Fits dialect ∧ query.Guarded ∧ query.Ordered dialect ∧
      before.cursor.rest = query.tokens ∧
      Yields (head dialect) before () middle ∧
      List.Forall₂ (Projected.Tells before.cursor.text) query.items middle.statement.items ∧
      middle.cursor.text = before.cursor.text ∧
      middle.cursor.rest = query.behind ∧
      parsed.edits = before.statement.edits ++ query.anchors.map Token.edit ∧
      parsed.tables = query.tables ∧ parsed.projectionEnd = middle.cursor.start ∧
      parsed.Resolves middle.statement.items middle.statement.containsStar ∧
      after.statement = parsed.withDerivedColumns := by
  obtain @⟨middle, joined, filtered, grouped, ended, ordered, trailed, whole, tables, filters,
    groups, ends, orders, trails, ending⟩ := selectRun_of_yields answers
  have resolves := clauses_resolve ((head_keeps kept_noKeys plain.itemWord).of_yields whole noKeys)
    tables filters groups ends orders trails
  obtain rfl := bodyEnd_unmoved plain ends
  obtain ⟨select, words, group, items, isSelect, modifies, commas, fit, itemsGuarded,
    ⟨values, added, told⟩, moves, edits, tablesHead, projectionEnd⟩ := head_reads plain whole
  rw [noItems, List.nil_append] at added
  rw [moves.rest] at lexed
  obtain ⟨sources, joined, sourcesFit, sourcesGuarded, reads⟩ := fromClause_reads lexed.right tables
  obtain ⟨clauses, tokens, trailing, closed⟩ := clauses_read plain filters groups orders trails
  have behindTables := (reads.lexed lexed.right).2
  obtain ⟨pieces, among, passed⟩ := clauses behindTables
  have behindClauses := (passed.lexed behindTables).2
  have closing : tokens ++ trailed.cursor.rest ∈ dialect.closing :=
    Language.append_mem_mul trailing (ending_closes ending (closed.lexed behindClauses).2)
  have allClosing : ∀ token ∈ tokens ++ trailed.cursor.rest, token.kind.IsClosing := by
    rw [closed.moves.rest] at behindClauses
    exact dialect.areClosing_closing _ closing behindClauses
  obtain ⟨_, _, _, _, derived⟩ := ending_cases ending
  have later := (reads.trans passed.toReads).trans closed
  have behindIs : middle.cursor.rest = sources.flatMap Source.tokens ++
      pieces.flatMap Piece.tokens ++ (tokens ++ trailed.cursor.rest) := by
    rw [later.moves.rest]
    simp
  refine ⟨⟨select :: words, group, items, sources, pieces, tokens ++ trailed.cursor.rest⟩, middle,
    trailed.statement, ?_, ?_, ?_, ?_, whole, added ▸ told, moves.text, behindIs, ?_, ?_, ?_,
    resolves, derived⟩
  · refine ⟨?_, isSelect, ?_, ?_, commas, ?_, joined, ?_, ?_⟩
    · exact List.forall_mem_cons.mpr ⟨⟨_, isSelect⟩, modifies.keyword⟩
    · rcases modifies.group_cases with none | ⟨accepted, closing, on, last, isOn⟩
      · exact .inl none
      · refine .inr ⟨accepted, closing, on, ?_, isOn⟩
        rw [List.getLast?_cons_of_ne_nil (by rintro rfl; simp at last)]
        exact last
    · rw [behindIs] at fit
      exact fit
    · rw [passed.moves.rest, closed.moves.rest] at sourcesFit
      exact sourcesFit
    · have same := passed.fit
      rw [closed.moves.rest] at same
      exact same
    · intro token member
      exact (allClosing token member).noPoint
  · exact ⟨itemsGuarded, sourcesGuarded, passed.guarded, allClosing⟩
  · rw [behindIs] at modifies
    exact ⟨⟨select, words, rfl, isSelect, modifies⟩, among, closing⟩
  · rw [moves.rest, behindIs]
    rfl
  · rw [later.edits, edits, reads.tables, tablesHead, none]
    simp [Query.anchors, Query.projectedAnchors, Query.laterAnchors, Query.tables]
  · rw [later.tables, tablesHead, none]
    simp [Query.tables]
  · rw [later.projectionEnd, projectionEnd]

end AnalysisStep

/-- The cursor before the first token of a text. -/
theorem Cursor.ofText_ok {text : String} {cursor : Cursor} (opened : ofText text = .ok cursor) :
    cursor = { text, rest := Token.list text } := by
  unfold ofText at opened
  dsimp only at opened
  split at opened
  · cases opened
  · exact (Except.ok.inj opened).symm

namespace Statement

/-- The analysis of an accepted query is a run of the reader over its tokens. -/
theorem analyze_ok {dialect : Dialect} {text : String} {statement : Statement}
    {warnings : List Warning} (accepted : analyze dialect text = (.ok statement, warnings)) :
    Cursor.ofText text = .ok { text, rest := Token.list text } ∧
      ∃ after, Step.Yields (AnalysisStep.select dialect)
          { cursor := { text, rest := Token.list text } } () after ∧
        after.statement = statement ∧ after.warnings = warnings := by
  unfold analyze at accepted
  split at accepted
  · cases accepted
  · next cursor opened =>
    obtain rfl := Cursor.ofText_ok opened
    unfold ofCursor at accepted
    generalize ran : AnalysisStep.select dialect { cursor := { text, rest := Token.list text } } =
      outcome at accepted
    obtain ⟨answer, after⟩ := outcome
    cases answer with
    | error => cases accepted
    | ok =>
      obtain ⟨same, warned⟩ := Prod.mk.inj accepted
      exact ⟨opened, after, ran, Except.ok.inj same, warned⟩

/-- The statement of an accepted query is what the reader leaves behind its tokens. -/
theorem ofText_ok {dialect : Dialect} {text : String} {statement : Statement}
    (accepted : ofText dialect text = .ok statement) :
    Cursor.ofText text = .ok { text, rest := Token.list text } ∧
      ∃ after, Step.Yields (AnalysisStep.select dialect)
          { cursor := { text, rest := Token.list text } } () after ∧
        after.statement = statement := by
  obtain ⟨opened, after, answers, same, _⟩ := analyze_ok (Prod.ext accepted rfl)
  exact ⟨opened, after, answers, same⟩

end Statement

/-- The query has the tokens of the text, and the statement has its edits, its tables and the end of
its projection list. Of what was parsed, the items are those of the projection list and give the keys
their aliases. -/
structure Query.Describes (query : Query) (dialect : Dialect) (text : String)
    (statement : Statement) : Prop where
  fits : query.Fits dialect
  guarded : query.Guarded
  ordered : query.Ordered dialect
  tokens : Token.list text = query.tokens
  head : ∃ middle, Step.Yields (AnalysisStep.head dialect)
      { cursor := { text, rest := Token.list text } } () middle ∧
    middle.cursor.text = text ∧ middle.cursor.rest = query.behind
  told : ∃ middle, Step.Yields (AnalysisStep.head dialect)
      { cursor := { text, rest := Token.list text } } () middle ∧
    List.Forall₂ (Projected.Tells text) query.items middle.statement.items
  derived : ∃ parsed : Statement, statement = parsed.withDerivedColumns ∧
    parsed.edits = query.anchors.map Token.edit ∧ parsed.tables = query.tables ∧
    parsed.projectionEnd = Token.frontStart text.utf8ByteSize query.behind ∧
    ∃ middle, Step.Yields (AnalysisStep.head dialect)
        { cursor := { text, rest := Token.list text } } () middle ∧
      parsed.Resolves middle.statement.items middle.statement.containsStar

/-- An accepted query falls into its parts, and its statement is that of the parts. -/
theorem Statement.exists_query {dialect : Dialect} (plain : dialect.IsPlain) {text : String}
    {statement : Statement} (accepted : ofText dialect text = .ok statement) :
    ∃ query : Query, query.Describes dialect text statement := by
  obtain ⟨_, after, answers, rfl⟩ := ofText_ok accepted
  obtain ⟨query, middle, parsed, fits, guarded, ordered, same, head, told, text, behind, edits, tables,
    projectionEnd, resolves, derived⟩ :=
    AnalysisStep.select_reads plain rfl rfl rfl (Token.areLexed_list text) answers
  refine ⟨query, fits, guarded, ordered, same, ⟨middle, head, text, behind⟩, ⟨middle, head, told⟩,
    parsed, derived, by simpa using edits, tables, ?_, middle, head, resolves⟩
  rw [projectionEnd, Cursor.start_eq_frontStart, text, behind]

end SelectRouting
