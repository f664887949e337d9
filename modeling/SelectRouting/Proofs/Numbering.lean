import Mathlib.Data.List.Basic
import SelectRouting.Proofs.Counting

/-!
# How placeholders are numbered

A placeholder is numbered by how many stand before it in the text (`Statement.placeholders_numbered`).
The row limit names placeholders by these numbers, and the statement knows how many stand before the
end of its `WHERE` clause.
-/

namespace SelectRouting

/-- The token is an operand of a row limit. A placeholder has as its index the number of those among
the tokens before it, which are `front`. -/
inductive LimitValue.IsRead (front : List Token) (token : Token) : LimitValue → Prop where
  | literal {value : Nat} : token.kind = .integer value → IsRead front token (.literal value)
  | parameter : token.kind = .symbol .question →
      IsRead front token (.parameter (Token.placeholders front))

namespace Limit

/-- The operands that there are. -/
def operands (limit : Limit) : List LimitValue :=
  limit.offset.toList ++ limit.rowCount.toList

/-- The tokens behind `front` are a `LIMIT` clause of one or two operands, or nothing. -/
inductive Clause (front : List Token) : List Token → Option Limit → Prop where
  | absent : Clause front [] none
  | rows {word first : Token} {rowCount : LimitValue} : word.kind = .keyword .LIMIT →
      rowCount.IsRead (front ++ [word]) first →
        Clause front [word, first] (some { rowCount := some rowCount })
  | offsetBefore {word first comma second : Token} {offset rowCount : LimitValue} :
      word.kind = .keyword .LIMIT → offset.IsRead (front ++ [word]) first →
        comma.kind = .symbol .comma → rowCount.IsRead (front ++ [word, first, comma]) second →
          Clause front [word, first, comma, second]
            (some { offset := some offset, rowCount := some rowCount })
  | offsetBehind {word first other second : Token} {offset rowCount : LimitValue} :
      word.kind = .keyword .LIMIT → rowCount.IsRead (front ++ [word]) first →
        other.kind = .keyword .OFFSET → offset.IsRead (front ++ [word, first, other]) second →
          Clause front [word, first, other, second]
            (some { offset := some offset, rowCount := some rowCount })

/-- The tokens behind `front` are a clause that turns one limit into another one. -/
inductive Part (front : List Token) (limit : Option Limit) : List Token → Limit → Prop where
  | all {word other : Token} : word.kind = .keyword .LIMIT → other.kind = .keyword .ALL →
      Part front limit [word, other] { limit.getD {} with rowCount := none }
  | rows {word first : Token} {rowCount : LimitValue} : word.kind = .keyword .LIMIT →
      rowCount.IsRead (front ++ [word]) first →
        Part front limit [word, first] { limit.getD {} with rowCount := some rowCount }
  | offset {word first : Token} {unit : List Token} {offset : LimitValue} :
      word.kind = .keyword .OFFSET → offset.IsRead (front ++ [word]) first →
        (unit = [] ∨ ∃ rows, unit = [rows] ∧
          (rows.kind = .keyword .ROW ∨ rows.kind = .keyword .ROWS)) →
          Part front limit (word :: first :: unit) { limit.getD {} with offset := some offset }

/-- The tokens behind `front` are clauses that turn one limit into another one. -/
inductive Parts : (front : List Token) → Option Limit → List Token → Option Limit → Prop where
  | nil {front : List Token} {limit : Option Limit} : Parts front limit [] limit
  | cons {front clause clauses : List Token} {limit last : Option Limit} {next : Limit} :
      Part front limit clause next → Parts (front ++ clause) (some next) clauses last →
        Parts front limit (clause ++ clauses) last

end Limit

/-- The tokens behind `front` are the row limit that is allowed there. -/
def TrailingClauses.ReadsLimit (clauses : TrailingClauses) (front tokens : List Token)
    (limit : Option Limit) : Prop :=
  match clauses with
  | .none => tokens = [] ∧ limit = Option.none
  | .limitAndLocking => Limit.Clause front tokens limit
  | .limitAndOffset => Limit.Parts front Option.none tokens limit

section Operands
variable {front tokens : List Token} {value : LimitValue}

/-- The value is read at a token behind `front` among the tokens. -/
def LimitValue.IsAmong (value : LimitValue) (front tokens : List Token) : Prop :=
  ∃ before token after, tokens = before ++ token :: after ∧ value.IsRead (front ++ before) token

theorem LimitValue.IsAmong.append_left (among : value.IsAmong front tokens) (more : List Token) :
    value.IsAmong front (tokens ++ more) := by
  obtain ⟨before, token, after, rfl, read⟩ := among
  exact ⟨before, token, after ++ more, by simp, read⟩

theorem LimitValue.IsAmong.append_right {first : List Token}
    (among : value.IsAmong (front ++ first) tokens) : value.IsAmong front (first ++ tokens) := by
  obtain ⟨before, token, after, rfl, read⟩ := among
  exact ⟨first ++ before, token, after, by simp, by simpa using read⟩

/-- Every operand of a `LIMIT` clause is read at a token of it. -/
theorem Limit.Clause.isAmong {limit : Limit} (clause : Clause front tokens (some limit))
    (operand : value ∈ limit.operands) : value.IsAmong front tokens := by
  cases clause with
  | @rows word first _ _ read =>
    obtain rfl : value = _ := by simpa [operands] using operand
    exact ⟨[word], first, [], rfl, read⟩
  | @offsetBefore word first comma second _ _ _ read _ more =>
    rcases (by simpa [operands] using operand : value = _ ∨ value = _) with rfl | rfl
    · exact ⟨[word], first, [comma, second], rfl, read⟩
    · exact ⟨[word, first, comma], second, [], rfl, more⟩
  | @offsetBehind word first other second _ _ _ read _ more =>
    rcases (by simpa [operands] using operand : value = _ ∨ value = _) with rfl | rfl
    · exact ⟨[word, first, other], second, [], rfl, more⟩
    · exact ⟨[word], first, [other, second], rfl, read⟩

/-- An operand behind a clause is read at a token of it or was there before. -/
theorem Limit.Part.isAmong {limit : Option Limit} {next : Limit} (part : Part front limit tokens next)
    (operand : value ∈ next.operands) :
    value ∈ (limit.getD {}).operands ∨ value.IsAmong front tokens := by
  simp only [operands, List.mem_append, Option.mem_toList] at operand ⊢
  cases part with
  | all => exact .inl (.inl (by simpa using operand))
  | @rows word first _ _ read =>
    rcases operand with offset | rows
    · exact .inl (.inl offset)
    · obtain rfl := Option.some.inj rows
      exact .inr ⟨[word], first, [], rfl, read⟩
  | @offset word first unit _ _ read =>
    rcases operand with offset | rows
    · obtain rfl := Option.some.inj offset
      exact .inr ⟨[word], first, unit, rfl, read⟩
    · exact .inl (.inr rows)

/-- Every operand is read at a token of the clauses or was there before them. -/
theorem Limit.Parts.isAmong {start last : Option Limit} (parts : Parts front start tokens last)
    (operand : value ∈ (last.getD {}).operands) :
    value ∈ (start.getD {}).operands ∨ value.IsAmong front tokens := by
  induction parts with
  | nil => exact .inl operand
  | @cons front clause clauses _ _ _ part _ ih =>
    rcases ih operand with before | among
    · exact (part.isAmong before).imp_right fun among => among.append_left clauses
    · exact .inr among.append_right

/-- Every operand of the row limit is read at a token of it. -/
theorem TrailingClauses.ReadsLimit.isAmong {clauses : TrailingClauses} {limit : Limit}
    (reads : clauses.ReadsLimit front tokens (some limit)) (operand : value ∈ limit.operands) :
    value.IsAmong front tokens := by
  cases clauses with
  | none => cases reads.2
  | limitAndLocking => exact Limit.Clause.isAmong reads operand
  | limitAndOffset =>
    rcases Limit.Parts.isAmong reads operand with none | among
    · simp [Limit.operands] at none
    · exact among

end Operands

namespace Scan
open Step Cursor

variable {before after : Cursor} {front : List Token}

theorem placeholders_passed {passed : List Token} (passes : Passes before passed after)
    (counted : before.parameters = Token.placeholders front) :
    after.parameters = Token.placeholders (front ++ passed) := by
  rw [passes.parameters, counted, Token.placeholders_append]

/-- An operand of a row limit is one token. -/
theorem limitValue_reads {value : LimitValue} (counted : before.parameters = Token.placeholders front)
    (answers : Yields limitValue before value after) :
    ∃ token, Passes before [token] after ∧ value.IsRead front token := by
  unfold limitValue at answers
  rw [yields_look_bind] at answers
  split at answers
  · next value named =>
    rw [yields_advance_bind, yields_pure] at answers
    obtain ⟨rfl, rfl⟩ := answers
    obtain ⟨token, is, _, passes⟩ := passes_advance named (by simp) (by simp)
    exact ⟨token, passes, .literal is⟩
  · obtain ⟨index, _, counting, rest⟩ := yields_bind.mp answers
    obtain ⟨rfl, rfl⟩ := yields_pure.mp rest
    obtain ⟨rfl, token, is, passes⟩ := parameter_passes counting
    rw [counted]
    exact ⟨token, passes, .parameter is⟩
  · exact absurd answers not_yields_fail

/-- A `LIMIT` clause is read. -/
theorem limitClause_reads {limit : Option Limit}
    (counted : before.parameters = Token.placeholders front)
    (answers : Yields limitClause before limit after) :
    ∃ tokens, Passes before tokens after ∧ Limit.Clause front tokens limit := by
  obtain ⟨found, between, first, rest⟩ := yields_bind.mp answers
  rcases skipKeyword_cases first with ⟨rfl, word, isWord, passes⟩ | ⟨rfl, _, rfl⟩
  · rw [if_pos rfl] at rest
    obtain ⟨one, _, read, rest⟩ := yields_bind.mp rest
    have behindWord := placeholders_passed passes counted
    obtain ⟨first, more, isRead⟩ := limitValue_reads behindWord read
    have behindFirst := placeholders_passed more behindWord
    obtain ⟨found, _, second, rest⟩ := yields_bind.mp rest
    rcases skipSymbol_cases second (by simp) with ⟨rfl, comma, isComma, most⟩ | ⟨rfl, _, rfl⟩
    · rw [if_pos rfl] at rest
      obtain ⟨two, _, third, rest⟩ := yields_bind.mp rest
      obtain ⟨rfl, rfl⟩ := yields_pure.mp rest
      obtain ⟨second, last, alsoRead⟩ := limitValue_reads (placeholders_passed most behindFirst) third
      exact ⟨[word, first, comma, second], ((passes.trans more).trans most).trans last,
        .offsetBefore isWord isRead isComma (by simpa using alsoRead)⟩
    · rw [if_neg Bool.false_ne_true] at rest
      obtain ⟨found, _, third, rest⟩ := yields_bind.mp rest
      rcases skipKeyword_cases third with ⟨rfl, other, isOffset, most⟩ | ⟨rfl, _, rfl⟩
      · rw [if_pos rfl] at rest
        obtain ⟨two, _, fourth, rest⟩ := yields_bind.mp rest
        obtain ⟨rfl, rfl⟩ := yields_pure.mp rest
        obtain ⟨second, last, alsoRead⟩ :=
          limitValue_reads (placeholders_passed most behindFirst) fourth
        exact ⟨[word, first, other, second], ((passes.trans more).trans most).trans last,
          .offsetBehind isWord isRead isOffset (by simpa using alsoRead)⟩
      · obtain ⟨rfl, rfl⟩ := yields_pure.mp rest
        exact ⟨[word, first], passes.trans more, .rows isWord isRead⟩
  · obtain ⟨rfl, rfl⟩ := yields_pure.mp rest
    exact ⟨[], .refl _, .absent⟩

/-- One of the clauses `LIMIT` and `OFFSET` is read, or none stands here. -/
theorem limitRound_reads {limit : Option Limit} {answer : Round (Option Limit) (Option Limit)}
    (counted : before.parameters = Token.placeholders front)
    (answers : Yields (limitRound limit) before answer after) :
    (answer = .done limit ∧ before = after) ∨ ∃ tokens next, answer = .next (some next) ∧
      Passes before tokens after ∧ Limit.Part front limit tokens next := by
  obtain ⟨found, between, first, rest⟩ := yields_bind.mp answers
  rcases skipKeyword_cases first with ⟨rfl, word, isWord, passes⟩ | ⟨rfl, _, rfl⟩
  · rw [if_pos rfl] at rest
    obtain ⟨found, _, second, rest⟩ := yields_bind.mp rest
    rcases skipKeyword_cases second with ⟨rfl, all, isAll, more⟩ | ⟨rfl, _, rfl⟩
    · obtain ⟨rfl, rfl⟩ := yields_pure.mp rest
      exact .inr ⟨[word, all], _, rfl, passes.trans more, .all isWord isAll⟩
    · rw [if_neg Bool.false_ne_true] at rest
      obtain ⟨rowCount, _, wrapped, rest⟩ := yields_bind.mp rest
      obtain ⟨rfl, rfl⟩ := yields_pure.mp rest
      obtain ⟨value, read, rfl⟩ := yields_map.mp wrapped
      obtain ⟨first, more, isRead⟩ := limitValue_reads (placeholders_passed passes counted) read
      exact .inr ⟨[word, first], _, rfl, passes.trans more, .rows isWord isRead⟩
  · rw [if_neg Bool.false_ne_true] at rest
    obtain ⟨found, _, second, rest⟩ := yields_bind.mp rest
    rcases skipKeyword_cases second with ⟨rfl, word, isWord, passes⟩ | ⟨rfl, _, rfl⟩
    · rw [if_pos rfl] at rest
      obtain ⟨offset, _, read, rest⟩ := yields_bind.mp rest
      obtain ⟨_, _, third, rest⟩ := yields_bind.mp rest
      obtain ⟨rfl, rfl⟩ := yields_pure.mp rest
      obtain ⟨first, more, isRead⟩ := limitValue_reads (placeholders_passed passes counted) read
      rcases skipAnyKeyword_cases third with ⟨_, named, member, unit, is, most⟩ | ⟨_, _, rfl⟩
      · refine .inr ⟨[word, first, unit], _, rfl, (passes.trans more).trans most,
          .offset isWord isRead (.inr ⟨unit, rfl, ?_⟩)⟩
        rcases (by simpa using member : named = .ROW ∨ named = .ROWS) with rfl | rfl
        · exact .inl is
        · exact .inr is
      · exact .inr ⟨[word, first], _, rfl, passes.trans more, .offset isWord isRead (.inl rfl)⟩
    · obtain ⟨rfl, rfl⟩ := yields_pure.mp rest
      exact .inl ⟨rfl, rfl⟩

/-- The clauses `LIMIT` and `OFFSET` are read. -/
theorem limitClauses_reads {limit : Option Limit}
    (counted : before.parameters = Token.placeholders front)
    (answers : Yields limitClauses before limit after) :
    ∃ tokens, Passes before tokens after ∧ Limit.Parts front none tokens limit := by
  have ran : Rounds limitRound none before limit after := rounds_of_rounding answers
  clear answers
  generalize (none : Option Limit) = start at ran
  induction ran generalizing front with
  | done answers =>
    rcases limitRound_reads counted answers with ⟨ended, rfl⟩ | ⟨_, _, goes, _⟩
    · obtain rfl := Round.done.inj ended
      exact ⟨[], .refl _, .nil⟩
    · cases goes
  | next answers _ ih =>
    rcases limitRound_reads counted answers with ⟨ended, _⟩ | ⟨tokens, next, goes, passes, part⟩
    · cases ended
    · obtain rfl := Round.next.inj goes
      obtain ⟨more, rest, parts⟩ := ih (placeholders_passed passes counted)
      exact ⟨tokens ++ more, passes.trans rest, .cons part parts⟩

end Scan

namespace AnalysisStep
open Scan Step Cursor Analysis

variable {before after : Analysis} {dialect : Dialect}

/-- What of a statement the last clauses leave as it is. -/
structure KeepsCount (before after : Analysis) : Prop where
  tables : after.statement.tables = before.statement.tables
  parameters : after.statement.parameters = before.statement.parameters
  warnings : after.warnings = before.warnings

theorem KeepsCount.trans {first second third : Analysis} (left : KeepsCount first second)
    (right : KeepsCount second third) : KeepsCount first third :=
  ⟨right.tables.trans left.tables, right.parameters.trans left.parameters,
    right.warnings.trans left.warnings⟩

/-- Moving the cursor keeps all of it. -/
theorem KeepsCount.move {before : Analysis} {cursor : Cursor} :
    KeepsCount before { before with cursor } :=
  ⟨rfl, rfl, rfl⟩

theorem setLimit_keepsCount {limit : Option Limit} {answer : Unit}
    (answers : Yields (setLimit limit) before answer after) :
    KeepsCount before after ∧ after.statement.limit = limit.or before.statement.limit := by
  cases limit with
  | none =>
    obtain ⟨_, rfl⟩ := yields_pure.mp answers
    exact ⟨⟨rfl, rfl, rfl⟩, rfl⟩
  | some limit =>
    unfold setLimit at answers
    obtain rfl := yields_change.mp answers
    exact ⟨⟨rfl, rfl, rfl⟩, rfl⟩

theorem trailingClauses_keepsCount {answer : Unit}
    (answers : Yields (trailingClauses dialect) before answer after) : KeepsCount before after := by
  unfold trailingClauses at answers
  split at answers
  · obtain ⟨_, rfl⟩ := yields_pure.mp answers
    exact .move
  · obtain ⟨limit, _, first, rest⟩ := yields_bind.mp answers
    obtain ⟨_, _, second, last⟩ := yields_bind.mp rest
    obtain ⟨_, _, rfl⟩ := yields_scan.mp first
    obtain ⟨_, _, rfl⟩ := yields_scan.mp last
    exact (KeepsCount.move.trans (setLimit_keepsCount second).1).trans .move
  · obtain ⟨limit, _, first, rest⟩ := yields_bind.mp answers
    obtain ⟨_, _, rfl⟩ := yields_scan.mp first
    exact KeepsCount.move.trans (setLimit_keepsCount rest).1

/-- The row limit of the statement is the one that stands behind the keys. -/
theorem trailingClauses_reads {answer : Unit} {front : List Token}
    (counted : before.cursor.parameters = Token.placeholders front)
    (none : before.statement.limit = none)
    (answers : Yields (trailingClauses dialect) before answer after) :
    ∃ tokens behind, before.cursor.rest = tokens ++ behind ∧
      dialect.trailing.ReadsLimit front tokens after.statement.limit := by
  unfold trailingClauses at answers
  split at answers
  · next shape =>
    obtain ⟨_, rfl⟩ := yields_pure.mp answers
    rw [shape]
    exact ⟨[], _, rfl, rfl, none⟩
  · next shape =>
    obtain ⟨limit, _, first, rest⟩ := yields_bind.mp answers
    obtain ⟨_, _, second, last⟩ := yields_bind.mp rest
    obtain ⟨cursor, scanned, rfl⟩ := yields_scan.mp first
    obtain ⟨_, _, rfl⟩ := yields_scan.mp last
    obtain ⟨tokens, passes, clause⟩ := limitClause_reads counted scanned
    obtain ⟨_, same⟩ := setLimit_keepsCount second
    rw [none, Option.or_none] at same
    rw [shape, same]
    exact ⟨tokens, _, passes.rest, clause⟩
  · next shape =>
    obtain ⟨limit, _, first, rest⟩ := yields_bind.mp answers
    obtain ⟨cursor, scanned, rfl⟩ := yields_scan.mp first
    obtain ⟨tokens, passes, parts⟩ := limitClauses_reads counted scanned
    obtain ⟨_, same⟩ := setLimit_keepsCount rest
    rw [none, Option.or_none] at same
    rw [shape, same]
    exact ⟨tokens, _, passes.rest, parts⟩

/-- The semicolon and the end of the text leave the statement with its derived columns. -/
theorem ending_keepsCount {answer : Unit} (answers : Yields (do
      let _ ← skipSymbol .semicolon
      unless ← look (·.atEnd) do fail .endOfStatement
      change Statement.withDerivedColumns : AnalysisStep Unit) before answer after) :
    KeepsCount before after ∧ after.statement.limit = before.statement.limit := by
  obtain ⟨_, _, first, rest⟩ := yields_bind.mp answers
  obtain ⟨_, _, rfl⟩ := yields_scan.mp first
  rw [Step.yields_look_bind] at rest
  rcases yields_ite.mp rest with ⟨_, rest⟩ | ⟨_, rest⟩
  · obtain rfl := yields_change.mp rest
    exact ⟨⟨rfl, rfl, rfl⟩, rfl⟩
  · exact absurd rest Step.not_yields_fail_bind

/-- Reads a query up to the end of its `WHERE` clause. -/
def throughCondition (dialect : Dialect) : AnalysisStep Unit := do
  head dialect
  fromClause
  condition

/-- Reads a query up to the end of its `ORDER BY` clause. -/
def throughKeys (dialect : Dialect) : AnalysisStep Unit := do
  throughCondition dialect
  groupBy
  bodyEnd dialect
  orderBy dialect

end AnalysisStep

/-- The placeholders of the text are numbered in the statement. -/
structure Statement.Numbered (statement : Statement) (dialect : Dialect) (text : String) : Prop where
  /-- The row limit stands behind the keys, where its operands are read. -/
  limit : ∃ ordered front tokens behind,
    Step.Yields (AnalysisStep.throughKeys dialect) { cursor := { text, rest := Token.list text } } ()
      ordered ∧
    Token.list text = front ++ ordered.cursor.rest ∧ ordered.cursor.rest = tokens ++ behind ∧
    dialect.trailing.ReadsLimit front tokens statement.limit
  /-- The index of a placeholder in the row limit is the number of those before it in the text. -/
  index : ∀ limit, statement.limit = some limit → ∀ index, .parameter index ∈ limit.operands →
    ∃ before mark after, Token.list text = before ++ mark :: after ∧
      mark.kind = .symbol .question ∧ index = Token.placeholders before
  /-- With tables, the placeholders up to the end of the condition are counted. -/
  parameters : ∃ filtered front,
    Step.Yields (AnalysisStep.throughCondition dialect)
      { cursor := { text, rest := Token.list text } } () filtered ∧
    Token.list text = front ++ filtered.cursor.rest ∧
    statement.parameters = if statement.tables.isEmpty then 0 else Token.placeholders front

open Step AnalysisStep Analysis in
/-- The placeholders of an accepted query without tables that are named with their schemas are
numbered. -/
theorem Statement.placeholders_numbered {dialect : Dialect} (shipped : dialect ∈ Dialect.shipped)
    {text : String} {statement : Statement} {warnings : List Warning}
    (accepted : analyze dialect text = (.ok statement, warnings))
    (routed : ∀ schema table, .schemaQualified schema table ∉ warnings) :
    statement.Numbered dialect text := by
  have plain := Dialect.isPlain_of_shipped shipped
  obtain ⟨_, after, answers, rfl, rfl⟩ := analyze_ok accepted
  obtain @⟨middle, joined, filtered, grouped, ended, ordered, trailed, whole, tables, filters,
    groups, ends, orders, trails, ending⟩ := selectRun_of_yields answers
  have condition : Yields (throughCondition dialect) _ () filtered :=
    yields_bind.mpr ⟨(), middle, whole, yields_bind.mpr ⟨(), joined, tables, filters⟩⟩
  have keys : Yields (throughKeys dialect) _ () ordered :=
    yields_bind.mpr ⟨(), filtered, condition, yields_bind.mpr ⟨(), grouped, groups,
      yields_bind.mpr ⟨(), ended, ends, orders⟩⟩⟩
  obtain rfl := bodyEnd_unmoved plain ends
  -- The counts of the clauses add up up to the condition, where they are written down.
  have toJoined := ((head_counted plain.itemWord).of_yields whole).trans
    (fromClause_counted.of_yields tables)
  obtain ⟨passed, toPassed, rfl⟩ := condition_counts filters
  have toOrdered := (groupBy_counted.of_yields groups).trans
    ((orderBy_counted plain.nullsPlacement).of_yields orders)
  -- Nothing is warned of on the way, since the warnings are never taken back.
  obtain ⟨toEnd, limitKept⟩ := ending_keepsCount ending
  have keeps := (trailingClauses_keepsCount trails).trans toEnd
  have orderedRouted : ordered.IsRouted := by
    rw [keeps.warnings] at routed
    exact routed
  have passedRouted : passed.IsRouted := orderedRouted.of_subset toOrdered.warnings
  obtain ⟨one, passes, lexed⟩ :=
    (toJoined.trans toPassed).exists_passed passedRouted (Token.areLexed_list text)
  obtain ⟨two, more, _⟩ := toOrdered.exists_passed orderedRouted lexed
  have counted := passes.parameters
  have countedAll := (passes.trans more).parameters
  rw [Nat.zero_add] at counted countedAll
  have noLimit : ordered.statement.limit = none :=
    toOrdered.limit.trans (toPassed.limit.trans toJoined.limit)
  obtain ⟨tokens, behind, split, reads⟩ := trailingClauses_reads countedAll noLimit trails
  rw [← limitKept] at reads
  have front := (passes.trans more).rest
  refine ⟨⟨ordered, one ++ two, tokens, behind, keys, front, split, reads⟩, ?_,
    ⟨_, one, condition, passes.rest, ?_⟩⟩
  · intro limit same index operand
    rw [same] at reads
    obtain ⟨before, mark, others, rfl, read⟩ := reads.isAmong operand
    cases read with
    | parameter is =>
      refine ⟨one ++ two ++ before, mark, others ++ behind, ?_, is, rfl⟩
      rw [show Token.list text = _ from front, split]
      simp
  · have sameTables : after.statement.tables = joined.statement.tables := by
      obtain ⟨_, _, lexedJoined⟩ := toJoined.exists_passed
        (passedRouted.of_subset toPassed.warnings) (Token.areLexed_list text)
      obtain ⟨pieces, _, read⟩ := (clauses_read plain filters groups orders trails).1 lexedJoined
      exact keeps.tables.trans read.sameTables
    rw [keeps.parameters, toOrdered.parameters, sameTables, toJoined.parameters, counted]

/-- Placeholders in a call, in the condition and in the row limit are numbered through. -/
theorem Statement.placeholders_numbered_in_limit :
    let text := "SELECT COUNT(?), f(?) FROM t WHERE a = ? ORDER BY b LIMIT ?, ?"
    Dialect.mysql ∈ Dialect.shipped ∧ ∃ statement, analyze .mysql text = (.ok statement, []) ∧
      (∀ schema table, .schemaQualified schema table ∉ ([] : List Warning)) ∧
      statement.limit = some ⟨some (.parameter 3), some (.parameter 4)⟩ ∧
      statement.parameters = 3 ∧ statement.Numbered .mysql text := by
  have shipped : Dialect.mysql ∈ Dialect.shipped := by simp [Dialect.shipped]
  let text := "SELECT COUNT(?), f(?) FROM t WHERE a = ? ORDER BY b LIMIT ?, ?"
  have accepted : analyze .mysql text = (.ok
      { items := [.aggregation ⟨.count, "(?)", none, 1, []⟩, .plain "f(?)" none]
        tables := [⟨"t", none⟩]
        orderBy := [.column ⟨none, "b", .ascending, some "ORDER_BY_DERIVED_0"⟩]
        projectionEnd := 22
        parameters := 3
        limit := some ⟨some (.parameter 3), some (.parameter 4)⟩
        edits := [.tableName 27 "t", .projection 22 ["b AS ORDER_BY_DERIVED_0"]] }, []) := by
    decide +kernel
  exact ⟨shipped, _, accepted, by simp, rfl, rfl, placeholders_numbered shipped accepted (by simp)⟩

end SelectRouting
