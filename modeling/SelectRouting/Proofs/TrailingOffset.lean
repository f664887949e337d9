import SelectRouting.Proofs.EditPlacement
import SelectRouting.Proofs.RowLimits
import SelectRouting.Proofs.TrimmedClauses

/-!
# An `OFFSET` clause at the end

Behind the projection list no clause takes the word `OFFSET` and a number from the row limit. So an
`OFFSET` clause at the end of a query sets the offset of its limit, and the query without it has the same
items, tables and keys (`Statement.limit_of_trailing_offset`). The projection list, which may hold any
tokens, ends with the clause when it reaches the end of the query (`Statement.items_of_trailing_offset`).
-/

namespace SelectRouting

namespace RowClause
variable {clause : OffsetClause} {parameters : Nat} {tokens : List Token}

theorem Written.two_le {first : RowClause} (written : Written parameters tokens first) :
    2 ≤ tokens.length := by
  cases written <;> simp

/-- A clause that ends with the word `OFFSET` and a number is an `OFFSET` clause. -/
theorem Written.eq_offset {last : RowClause} (written : Written parameters tokens last)
    (ends : [clause.word, clause.number] <:+ tokens) : last = .offset (.literal clause.value) := by
  cases written with
  | @limit word operand _ is _ =>
    obtain ⟨rfl, _⟩ := @OffsetClause.eq_of_suffix clause [] word operand ends
    cases clause.isWord.symm.trans is
  | @all word all is _ =>
    obtain ⟨rfl, _⟩ := @OffsetClause.eq_of_suffix clause [] word all ends
    cases clause.isWord.symm.trans is
  | @offset word operand _ _ reads =>
    obtain ⟨_, rfl⟩ := @OffsetClause.eq_of_suffix clause [] word operand ends
    cases reads with
    | literal is =>
      cases clause.isNumber.symm.trans is
      rfl
    | placeholder is => cases clause.isNumber.symm.trans is
  | @offsetRows word operand rows _ _ _ isRows =>
    obtain ⟨_, rfl⟩ := @OffsetClause.eq_of_suffix clause [word] operand rows ends
    rw [clause.isNumber] at isRows
    rcases isRows with is | is <;> cases is

/-- Of clauses that end with the word `OFFSET` and a number the last one is an `OFFSET` clause. -/
theorem Sequence.eq_append_offset {clauses : List RowClause}
    (sequence : Sequence parameters tokens clauses) (ends : [clause.word, clause.number] <:+ tokens) :
    ∃ front, clauses = front ++ [.offset (.literal clause.value)] := by
  induction sequence with
  | nil => simpa using ends.length_le
  | @cons _ first rest last clauses written sequence ih =>
    cases sequence with
    | nil =>
      rw [List.append_nil] at ends
      exact ⟨[], by rw [written.eq_offset ends, List.nil_append]⟩
    | cons next _ =>
      have long := next.two_le
      obtain ⟨front, same⟩ := ih (List.suffix_of_suffix_length_le ends (List.suffix_append _ _)
        (by simp only [List.length_append, List.length_cons, List.length_nil]; omega))
      exact ⟨last :: front, by rw [same, List.cons_append]⟩

end RowClause

/-- The second text is the first one up to the clause at the end of that, and has no more tokens. -/
structure OffsetClause.Drops (clause : OffsetClause) (text short : String) : Prop where
  tokens : Token.list text = Token.list short ++ [clause.word, clause.number]
  front : ∃ front removed left, text.toList = front ++ removed ∧ short.toList = front ++ left ∧
    Text.width front = clause.word.start

namespace AnalysisStep
open Scan Step Cursor OffsetClause
variable {clause : OffsetClause} {text short : String} {before middle after ordered trailed : Analysis}

/-- Before the first token the analyses of both texts stand at the same place. -/
theorem trimsAnalysis_of_drops (drops : clause.Drops text short) :
    clause.TrimsAnalysis { cursor := { text, rest := Token.list text } }
      { cursor := { text := short, rest := Token.list short } } := by
  obtain ⟨front, removed, left, whole, cut, ends⟩ := drops.front
  refine ⟨⟨drops.tokens, rfl, rfl, Nat.zero_le _, ?_, ?_⟩, rfl⟩
  · exact fun token member => Token.stop_le_frontStart drops.tokens member
  · intro span inside
    rw [← ends] at inside
    rw [Span.slice, Span.slice, whole, cut, Text.slice?_append_front inside,
      Text.slice?_append_front inside]

/-- Up to a place before the clause the clause is not passed. -/
theorem ends_of_start_le {passed : List Token}
    (moves : Moves { text, rest := Token.list text } passed middle.cursor)
    (ends : [clause.word, clause.number] <:+ Token.list text)
    (behind : middle.cursor.start ≤ clause.word.start) :
    [clause.word, clause.number] <:+ middle.cursor.rest := by
  have whole : Token.list text = passed ++ middle.cursor.rest := moves.rest
  obtain ⟨front, same⟩ := ends
  rcases List.append_eq_append_iff.mp (same.trans whole) with ⟨cut, rfl, split⟩ | ⟨rest, _, split⟩
  · cases cut with
    | nil => exact split ▸ List.suffix_refl _
    | cons word cut =>
      obtain ⟨rfl, _⟩ := List.cons.inj split
      have stop := Token.stop_le_frontStart whole (List.mem_append_right _ List.mem_cons_self)
      have start := Cursor.start_eq_frontStart middle.cursor
      rw [moves.text] at start
      have long := clause.lexed.start_lt_stop
      dsimp only at start
      omega
  · exact ⟨rest, split.symm⟩

theorem projectionEnd_of_run {dialect : Dialect} (whole : Yields (head dialect) before () middle)
    (later : Yields (laterClauses dialect) middle () ordered)
    (trails : Yields (trailingClauses dialect) ordered () trailed) :
    trailed.statement.projectionEnd = middle.cursor.start := by
  obtain ⟨_, _, _, last, _, _, _, _, rfl⟩ := head_cases whole
  have kept : KeptByClauses (·.projectionEnd = last.cursor.start) :=
    ⟨fun _ _ => id, fun _ _ => id, fun _ _ => id, fun _ _ same _ => same, fun _ _ same _ => same⟩
  exact (trailingClauses_keeps (P := (·.projectionEnd = last.cursor.start)) (fun _ _ => id)
    dialect).of_yields trails ((laterClauses_keeps kept dialect).of_yields later rfl)

/-- A query that ends with the clause is read up to the clause before the row limit, and the clause is the
last one of the limit. -/
theorem reaches_of_run
    (whole : Yields (head .postgres) { cursor := { text, rest := Token.list text } } () middle)
    (later : Yields (laterClauses .postgres) middle () ordered)
    (trails : Yields (trailingClauses .postgres) ordered () trailed)
    (ending : Yields (do
      let _ ← skipSymbol .semicolon
      unless ← look (·.atEnd) do fail .endOfStatement
      change Statement.withDerivedColumns : AnalysisStep Unit) trailed () after)
    (ends : [clause.word, clause.number] <:+ Token.list text)
    (behind : middle.cursor.start ≤ clause.word.start) :
    [clause.word, clause.number] <:+ ordered.cursor.rest ∧
      ∃ limit, trailed.statement.limit = some limit ∧ limit.offset = some (.literal clause.value) := by
  have plain : Dialect.postgres.IsPlain := ⟨rfl, rfl, rfl⟩
  obtain ⟨_, _, _, _, _, _, _, _, _, _, moves, _⟩ := head_reads plain whole
  obtain ⟨tokens, more, spared⟩ :=
    (laterClauses_leads clause plain.nullsPlacement).of_yields later spared_nil
  obtain ⟨limiting, clauses, sequence, passes, _, _, folded⟩ := trailingClauses_folds trails
  have reached := ends_of_start_le moves ends behind
  rw [more.rest, passes.rest] at reached
  have lexed := Token.areLexed_list text
  rw [show Token.list text = _ from ((moves.trans more).trans passes.toMoves).rest] at lexed
  rcases ending_left ending lexed.right with none | ⟨mark, is, single⟩
  · rw [none, List.append_nil] at reached
    -- a row limit has no clause of one token, so it has both tokens or none
    have limited : [clause.word, clause.number] <:+ limiting := by
      cases sequence with
      | nil =>
        rw [List.append_nil] at reached
        exact absurd reached spared
      | cons written _ =>
        have long := written.two_le
        refine List.suffix_of_suffix_length_le reached (List.suffix_append _ _) ?_
        simp only [List.length_append, List.length_cons, List.length_nil]
        omega
    obtain ⟨front, rfl⟩ := sequence.eq_append_offset limited
    rw [List.foldl_append] at folded
    refine ⟨?_, _, congrArg (·.statement.limit) folded, rfl⟩
    rwa [passes.rest, none, List.append_nil]
  · rw [single, ← List.append_assoc] at reached
    refine absurd reached (spared_of_last fun value number => ?_)
    cases is.symm.trans number

end AnalysisStep

namespace Statement
open AnalysisStep Step
variable {text : String} {statement : Statement}

/-- An `OFFSET` clause at the end of a query, behind the projection list, sets the offset of the limit. No
clause before it takes it for its own: where the query is also accepted without the clause, it has the same
items, tables and keys. -/
theorem limit_of_trailing_offset (clause : OffsetClause)
    (accepted : ofText .postgres text = .ok statement)
    (ends : [clause.word, clause.number] <:+ Token.list text)
    (behind : statement.projectionEnd ≤ clause.word.start) :
    (∃ limit, statement.limit = some limit ∧ limit.offset = some (.literal clause.value)) ∧
      ∀ short other, clause.Drops text short → ofText .postgres short = .ok other →
        other.items = statement.items ∧ other.tables = statement.tables ∧
          other.groupBy = statement.groupBy ∧ other.orderBy = statement.orderBy := by
  have plain : Dialect.postgres.IsPlain := ⟨rfl, rfl, rfl⟩
  obtain ⟨_, after, answers, rfl⟩ := ofText_ok accepted
  obtain ⟨middle, ordered, trailed, whole, later, trails, ending⟩ :=
    (selectRun_of_yields answers).exists_later plain
  obtain ⟨_, _, _, _, derived⟩ := ending_cases ending
  rw [derived] at behind ⊢
  rw [show trailed.statement.withDerivedColumns.projectionEnd = _ from
    projectionEnd_of_run whole later trails] at behind
  obtain ⟨reached, limited⟩ := reaches_of_run whole later trails ending ends behind
  refine ⟨limited, fun short other drops accepted' => ?_⟩
  obtain ⟨_, after', answers', rfl⟩ := ofText_ok accepted'
  obtain ⟨middle', ordered', trailed', whole', later', trails', ending'⟩ :=
    (selectRun_of_yields answers').exists_later plain
  obtain ⟨_, _, _, _, derived'⟩ := ending_cases ending'
  have shadows : Shadows clause.TrimsAnalysis (do head .postgres; laterClauses .postgres)
      (do head .postgres; laterClauses .postgres) :=
    .bind (head_shadows plain.itemWord) fun _ => laterClauses_shadows plain.nullsPlacement
  have ran := shadows.follows (trimsAnalysis_of_drops drops) _ _ _ _
    (yields_bind.mpr ⟨(), middle, whole, later⟩) (yields_bind.mpr ⟨(), middle', whole', later'⟩)
  rcases ran with ⟨_, trims⟩ | entered
  · obtain ⟨_, _, _, _, _, _, limits⟩ := trailingClauses_folds trails
    obtain ⟨_, _, _, _, _, _, limits'⟩ := trailingClauses_folds trails'
    rw [derived', limits', trims.statement, limits]
    exact ⟨rfl, rfl, rfl, rfl⟩
  · exact absurd (reached.length_le.trans entered) (by simp)

/-- The column that is ordered by has the name of the clause. -/
theorem limit_of_trailing_offset_of_column :
    let text := "SELECT a FROM t ORDER BY offset OFFSET 5"
    let short := "SELECT a FROM t ORDER BY offset "
    ∃ (clause : OffsetClause) (statement other : Statement), clause.value = 5 ∧
      [clause.word, clause.number] <:+ Token.list text ∧
      ofText .postgres text = .ok statement ∧ statement.projectionEnd ≤ clause.word.start ∧
      (∃ limit, statement.limit = some limit ∧ limit.offset = some (.literal 5)) ∧
      clause.Drops text short ∧ ofText .postgres short = .ok other ∧
      other.orderBy = [.column ⟨none, "offset", .ascending, some "ORDER_BY_DERIVED_0"⟩] ∧
      other.items = statement.items ∧ other.tables = statement.tables ∧
      other.groupBy = statement.groupBy ∧ other.orderBy = statement.orderBy := by
  intro text short
  let other : Statement :=
    { items := [.plain "a" none]
      tables := [⟨"t", none⟩]
      orderBy := [.column ⟨none, "offset", .ascending, some "ORDER_BY_DERIVED_0"⟩]
      projectionEnd := 9
      edits := [.tableName 14 "t", .projection 9 ["offset AS ORDER_BY_DERIVED_0"]] }
  let statement : Statement := { other with limit := some ⟨some (.literal 5), none⟩ }
  have tokens : Token.list text =
      Token.list short ++ [⟨.keyword .OFFSET, 32, "OFFSET"⟩, ⟨.integer 5, 39, "5"⟩] := by
    decide +kernel
  have accepted : ofText .postgres text = .ok statement ∧ ofText .postgres short = .ok other := by
    decide +kernel
  let clause : OffsetClause :=
    { word := ⟨.keyword .OFFSET, 32, "OFFSET"⟩
      number := ⟨.integer 5, 39, "5"⟩
      value := 5
      isWord := rfl
      isNumber := rfl
      lexed := Token.areLexed_list text _ (by rw [tokens]; simp) }
  have ends : [clause.word, clause.number] <:+ Token.list text := ⟨_, tokens.symm⟩
  have front : text.toList = short.toList ++ "OFFSET 5".toList ∧ Text.width short.toList = 32 := by
    decide +kernel
  have drops : clause.Drops text short :=
    ⟨tokens, short.toList, _, [], front.1, (List.append_nil _).symm, front.2⟩
  have behind : statement.projectionEnd ≤ clause.word.start := by
    change 9 ≤ 32
    decide
  obtain ⟨limited, kept⟩ := limit_of_trailing_offset clause accepted.1 ends behind
  exact ⟨clause, statement, other, rfl, ends, accepted.1, behind, limited, drops, accepted.2, rfl,
    kept short other drops accepted.2⟩

/-- An item of the projection list goes on over the clause, since its word can be the name of a column. -/
theorem items_of_trailing_offset :
    let text := "SELECT a OFFSET 5"
    (Token.list text).map Token.kind =
        [.keyword .SELECT, .identifier "a", .keyword .OFFSET, .integer 5] ∧
      (ofText .postgres text).map (fun statement => (statement.items, statement.limit)) =
        .ok ([.plain "a OFFSET 5" none], none) := by
  decide +kernel

end Statement

end SelectRouting
