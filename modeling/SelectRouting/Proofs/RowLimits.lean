import SelectRouting.Proofs.ClosingPassage

/-!
# Row limits in either order

Where `LIMIT` and `OFFSET` may stand in either order, the clauses are read as long as one begins
(`RowClause.Sequence`). Each sets its own part of the limit, so that of several clauses of a kind the
last one decides (`AnalysisStep.limit_of_clauses`).
-/

namespace SelectRouting

/-- A clause of a row limit with its operand, which `LIMIT ALL` has not. -/
inductive RowClause where
  | limit (operand : Option LimitValue)
  | offset (operand : LimitValue)

namespace RowClause

/-- The token is the operand where `parameters` placeholders stand before it. -/
inductive Operand (parameters : Nat) : Token → LimitValue → Prop where
  | literal {token : Token} {value : Nat} : token.kind = .integer value →
      Operand parameters token (.literal value)
  | placeholder {token : Token} : token.kind = .symbol .question →
      Operand parameters token (.parameter parameters)

/-- The tokens are the clause where `parameters` placeholders stand before them. -/
inductive Written (parameters : Nat) : List Token → RowClause → Prop where
  | limit {word operand : Token} {value : LimitValue} : word.kind = .keyword .LIMIT →
      Operand parameters operand value → Written parameters [word, operand] (.limit (some value))
  | all {word all : Token} : word.kind = .keyword .LIMIT → all.kind = .keyword .ALL →
      Written parameters [word, all] (.limit none)
  | offset {word operand : Token} {value : LimitValue} : word.kind = .keyword .OFFSET →
      Operand parameters operand value → Written parameters [word, operand] (.offset value)
  | offsetRows {word operand rows : Token} {value : LimitValue} : word.kind = .keyword .OFFSET →
      Operand parameters operand value → rows.kind = .keyword .ROW ∨ rows.kind = .keyword .ROWS →
        Written parameters [word, operand, rows] (.offset value)

/-- The tokens are the clauses, one after the other. -/
inductive Sequence : (parameters : Nat) → List Token → List RowClause → Prop where
  | nil {parameters : Nat} : Sequence parameters [] []
  | cons {parameters : Nat} {first rest : List Token} {clause : RowClause} {clauses : List RowClause} :
      Written parameters first clause →
        Sequence (parameters + Token.placeholders first) rest clauses →
        Sequence parameters (first ++ rest) (clause :: clauses)

/-- The row count of a `LIMIT` clause. -/
def rowCount? : RowClause → Option (Option LimitValue)
  | .limit operand => some operand
  | .offset _ => none

/-- The rows that an `OFFSET` clause skips. -/
def offset? : RowClause → Option LimitValue
  | .limit _ => none
  | .offset operand => some operand

/-- The limit of the clauses, of which the last one of each kind decides. -/
def limit? (clauses : List RowClause) : Option Limit :=
  if clauses = [] then none
  else some
    { offset := (clauses.filterMap offset?).getLast?
      rowCount := (clauses.filterMap rowCount?).getLast?.join }

/-- The limit behind one more clause. -/
def after (limit : Option Limit) : RowClause → Option Limit
  | .limit operand => some { limit.getD {} with rowCount := operand }
  | .offset operand => some { limit.getD {} with offset := some operand }

/-- Clauses that are read one after the other set the limit of all of them. -/
theorem foldl_after (clauses : List RowClause) : clauses.foldl after none = limit? clauses := by
  induction clauses using List.reverseRecOn with
  | nil => rfl
  | append_singleton clauses clause ih =>
    rw [List.foldl_append, ih]
    by_cases first : clauses = []
    · subst first
      cases clause <;> rfl
    · cases clause <;> simp [limit?, after, first, rowCount?, offset?]

end RowClause

namespace Scan
open Step Cursor

variable {before after : Cursor}

/-- An operand of a row limit is passed. -/
theorem limitValue_passes {value : LimitValue} (answers : Yields limitValue before value after) :
    ∃ operand, RowClause.Operand before.parameters operand value ∧ Passes before [operand] after := by
  unfold limitValue at answers
  rw [yields_look_bind] at answers
  split at answers
  · next number named =>
    rw [yields_advance_bind, yields_pure] at answers
    obtain ⟨rfl, rfl⟩ := answers
    obtain ⟨operand, is, _, passes⟩ := passes_advance named (by simp) (by simp)
    exact ⟨operand, .literal is, passes⟩
  · obtain ⟨index, _, counted, rest⟩ := yields_bind.mp answers
    obtain ⟨rfl, rfl⟩ := yields_pure.mp rest
    obtain ⟨rfl, operand, is, passes⟩ := parameter_passes counted
    exact ⟨operand, .placeholder is, passes⟩
  · exact absurd answers not_yields_fail

/-- A round passes a clause, which sets its part of the limit, or ends where no clause begins. -/
theorem limitRound_cases {limit : Option Limit} {answer : Round (Option Limit) (Option Limit)}
    (answers : Yields (limitRound limit) before answer after) :
    (answer = .done limit ∧ before.kind ≠ .keyword .LIMIT ∧ before.kind ≠ .keyword .OFFSET ∧
        after = before) ∨
      ∃ tokens clause, RowClause.Written before.parameters tokens clause ∧
        Passes before tokens after ∧ answer = .next (RowClause.after limit clause) := by
  obtain ⟨_, between, first, rest⟩ := yields_bind.mp answers
  rcases skipKeyword_cases first with ⟨rfl, word, is, passes⟩ | ⟨rfl, noLimit, rfl⟩
  · rw [if_pos rfl] at rest
    have uncounted : between.parameters = before.parameters := by
      simp [passes.parameters, Token.placeholders, is]
    right
    obtain ⟨_, middle, second, rest⟩ := yields_bind.mp rest
    rcases skipKeyword_cases second with ⟨rfl, all, isAll, more⟩ | ⟨rfl, _, rfl⟩
    · obtain ⟨rfl, rfl⟩ := yields_pure.mp rest
      exact ⟨_, _, .all is isAll, passes.trans more, rfl⟩
    · obtain ⟨_, last, read, rest⟩ := yields_bind.mp rest
      obtain ⟨rfl, rfl⟩ := yields_pure.mp rest
      obtain ⟨value, valued, rfl⟩ := yields_map.mp read
      obtain ⟨operand, reads, more⟩ := limitValue_passes valued
      rw [uncounted] at reads
      exact ⟨_, _, .limit is reads, passes.trans more, rfl⟩
  · rw [if_neg Bool.false_ne_true] at rest
    obtain ⟨_, between, second, rest⟩ := yields_bind.mp rest
    rcases skipKeyword_cases second with ⟨rfl, word, is, passes⟩ | ⟨rfl, noOffset, rfl⟩
    · rw [if_pos rfl] at rest
      right
      obtain ⟨value, middle, read, rest⟩ := yields_bind.mp rest
      obtain ⟨_, last, skipped, rest⟩ := yields_bind.mp rest
      obtain ⟨rfl, rfl⟩ := yields_pure.mp rest
      obtain ⟨operand, reads, more⟩ := limitValue_passes read
      rw [passes.parameters] at reads
      have reads : RowClause.Operand before.parameters operand value := by
        simpa [Token.placeholders, is] using reads
      rcases skipAnyKeyword_cases skipped with ⟨_, rows, among, token, isRows, behind⟩ | ⟨_, _, rfl⟩
      · have isRows : token.kind = .keyword .ROW ∨ token.kind = .keyword .ROWS := by
          simpa [isRows] using among
        exact ⟨_, _, .offsetRows is reads isRows, (passes.trans more).trans behind, rfl⟩
      · exact ⟨_, _, .offset is reads, passes.trans more, rfl⟩
    · obtain ⟨rfl, rfl⟩ := yields_pure.mp rest
      exact .inl ⟨rfl, noLimit, noOffset, rfl⟩

/-- The rounds pass clauses up to where none begins, and each of them sets its part of the limit. -/
theorem limitRounds_passes {limit answer : Option Limit}
    (ran : Rounds limitRound limit before answer after) :
    ∃ tokens clauses, RowClause.Sequence before.parameters tokens clauses ∧
      Passes before tokens after ∧ after.kind ≠ .keyword .LIMIT ∧ after.kind ≠ .keyword .OFFSET ∧
      answer = clauses.foldl RowClause.after limit := by
  induction ran with
  | done answers =>
    rcases limitRound_cases answers with ⟨ended, noLimit, noOffset, rfl⟩ | ⟨_, _, _, _, next⟩
    · cases ended
      exact ⟨[], [], .nil, .refl _, noLimit, noOffset, rfl⟩
    · cases next
  | next answers _ ih =>
    rcases limitRound_cases answers with ⟨ended, _⟩ | ⟨tokens, clause, written, passes, next⟩
    · cases ended
    · cases next
      obtain ⟨others, clauses, sequence, more, noLimit, noOffset, rfl⟩ := ih
      rw [passes.parameters] at sequence
      exact ⟨_, _, .cons written sequence, passes.trans more, noLimit, noOffset, rfl⟩

end Scan

namespace AnalysisStep
open Step

variable {before after : Analysis}

/-- The clauses set the limit one after the other. -/
theorem trailingClauses_folds (answers : Yields (trailingClauses .postgres) before () after) :
    ∃ tokens clauses, RowClause.Sequence before.cursor.parameters tokens clauses ∧
      Cursor.Passes before.cursor tokens after.cursor ∧
      after.cursor.kind ≠ .keyword .LIMIT ∧ after.cursor.kind ≠ .keyword .OFFSET ∧
      after = { before with
        cursor := after.cursor
        statement := { before.statement with
          limit := (clauses.foldl RowClause.after none).or before.statement.limit } } := by
  obtain ⟨limit, between, read, rest⟩ := yields_bind.mp answers
  obtain ⟨cursor, scanned, rfl⟩ := yields_scan.mp read
  obtain ⟨tokens, clauses, sequence, passes, noLimit, noOffset, rfl⟩ :=
    Scan.limitRounds_passes (rounds_of_rounding scanned)
  refine ⟨tokens, clauses, sequence, ?_⟩
  cases found : clauses.foldl RowClause.after none with
  | none =>
    rw [found] at rest
    obtain ⟨_, rfl⟩ := yields_pure.mp rest
    exact ⟨passes, noLimit, noOffset, rfl⟩
  | some limit =>
    rw [found] at rest
    unfold setLimit at rest
    obtain rfl := yields_change.mp rest
    exact ⟨passes, noLimit, noOffset, rfl⟩

/-- Behind `ORDER BY` all clauses `LIMIT` and `OFFSET` are passed, in whatever order and however often
they stand there. Without a clause the limit stays; otherwise it has the operands of the last `OFFSET`
and of the last `LIMIT` clause, where one that is missing or has no operand gives none. -/
theorem limit_of_clauses (answers : Yields (trailingClauses .postgres) before () after) :
    ∃ tokens clauses, RowClause.Sequence before.cursor.parameters tokens clauses ∧
      Cursor.Passes before.cursor tokens after.cursor ∧
      after.cursor.kind ≠ .keyword .LIMIT ∧ after.cursor.kind ≠ .keyword .OFFSET ∧
      after.statement = { before.statement with
        limit := (RowClause.limit? clauses).or before.statement.limit } ∧
      after.warnings = before.warnings := by
  obtain ⟨tokens, clauses, sequence, passes, noLimit, noOffset, same⟩ := trailingClauses_folds answers
  rw [RowClause.foldl_after] at same
  rw [same]
  exact ⟨tokens, clauses, sequence, passes, noLimit, noOffset, rfl, rfl⟩

/-- A second `LIMIT` clause takes the place of the first one, and its placeholder is counted behind
the one of the `OFFSET` clause. -/
theorem limit_of_clauses_of_parameters :
    let text := "LIMIT 10 OFFSET ? ROWS LIMIT ?"
    let before : Analysis := { cursor := { text, rest := Token.list text } }
    ∃ after tokens clauses, Yields (trailingClauses .postgres) before () after ∧
      after.cursor.rest = [] ∧ RowClause.Sequence 0 tokens clauses ∧
      Cursor.Passes before.cursor tokens after.cursor ∧
      RowClause.limit? clauses = some ⟨some (.parameter 0), some (.parameter 1)⟩ := by
  intro text before
  let after := (trailingClauses .postgres before).2
  have outcome : (trailingClauses .postgres before).1 = .ok () ∧ after.cursor.rest = [] ∧
      after.statement.limit = some ⟨some (.parameter 0), some (.parameter 1)⟩ := by
    decide +kernel
  obtain ⟨answered, passed, limited⟩ := outcome
  have answers : Yields (trailingClauses .postgres) before () after := Prod.ext answered rfl
  obtain ⟨tokens, clauses, sequence, passes, _, _, statement, _⟩ := limit_of_clauses answers
  refine ⟨after, tokens, clauses, answers, passed, sequence, passes, ?_⟩
  rw [statement] at limited
  simpa [before] using limited

/-- A query with two `LIMIT` clauses is accepted. -/
theorem limit_given_again :
    (Statement.ofText .postgres "SELECT a FROM t LIMIT 1 LIMIT 2").map Statement.limit =
      .ok (some ⟨none, some (.literal 2)⟩) := by
  decide +kernel

end AnalysisStep

end SelectRouting
