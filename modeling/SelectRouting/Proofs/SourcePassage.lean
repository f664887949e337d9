import SelectRouting.Proofs.ClausePassage

/-!
# What the readers of tables pass

The readers of the `FROM` clause pass its tables with what joins them (`AnalysisStep.sources_read`).
A table is registered before its condition is read, so an owner in the condition is recorded when
its table is that one or one before it.
-/

namespace SelectRouting

namespace AnalysisStep
open Scan Step Cursor Analysis

variable {before after : Analysis}

/-- A table is passed with its alias. It is registered and its name recorded, unless it is named
with its schema. -/
theorem source_reads {answer : Unit} (answers : Yields source before answer after) :
    ∃ table : Source, table.introducer = [] ∧ table.equations = [] ∧ table.columns = [] ∧
      table.IsNamed ∧ (table.name = [] → table.named ++ after.cursor.rest = []) ∧
      AliasTokens table.named (Token.aliasIn table.named) after.cursor.kind ∧
      Reads before table.tokens table.routed table.tables after := by
  unfold source at answers
  rw [Step.yields_look_bind] at answers
  rw [cursor_analysis, show before.cursor.current.kind = before.cursor.kind from rfl] at answers
  split at answers
  · next written named =>
    rw [Step.yields_advance_bind] at answers
    obtain ⟨token, is, current, first⟩ := passes_advance named (by simp) (by simp)
    rw [current] at answers
    obtain ⟨pointed, between, skipped, rest⟩ := yields_bind.mp answers
    obtain ⟨cursor, scanned, rfl⟩ := yields_scan.mp skipped
    rcases skipSymbol_cases scanned (by simp) with ⟨rfl, point, isPoint, second⟩ | ⟨rfl, _, rfl⟩
    · rw [if_pos rfl, Step.yields_look_bind, Step.yields_advance_bind] at rest
      obtain ⟨_, _, aliased, rest⟩ := yields_bind.mp rest
      obtain rfl := yields_warn.mp rest
      obtain ⟨name, short, ended, third⟩ : ∃ name : List Token, name.length ≤ 1 ∧
          (name = [] → cursor.advance.rest = []) ∧ Moves cursor name cursor.advance := by
        rcases advance_cases cursor with ⟨none, still⟩ | ⟨name, _, moves⟩
        · exact ⟨[], by simp, by simp [still, none], by rw [still]; exact .refl cursor⟩
        · exact ⟨[name], by simp, by simp, moves⟩
      obtain ⟨given, _, are, reads⟩ := aliasName_reads aliased
      refine ⟨⟨[], [token, point], name, given, [], []⟩, rfl, rfl, rfl, ?_, ?_, are, ?_⟩
      · exact .inr ⟨token, point, rfl, by simp [is, TokenKind.isIdentifier], isPoint, short⟩
      · intro none
        rw [← reads.moves.rest]
        exact ended none
      · have moves := ((first.toMoves.trans second.toMoves).trans third).trans reads.moves
        exact ⟨by simpa [Source.tokens, Source.condition] using moves, reads.edits, reads.tables,
          reads.projectionEnd⟩
    · rw [if_neg Bool.false_ne_true] at rest
      obtain ⟨_, _, added, rest⟩ := yields_bind.mp rest
      obtain ⟨answer, _, aliased, changed⟩ := yields_bind.mp rest
      obtain rfl := yields_change.mp changed
      obtain ⟨given, rfl, are, reads⟩ := aliasName_reads aliased
      have both := ((Reads.move first.toMoves).trans (addEdit_reads added)).trans reads
      refine ⟨⟨[], [], [token], given, [], []⟩, rfl, rfl, rfl, ?_, by simp, are, ?_⟩
      · exact .inl ⟨rfl, token, rfl, by simp [is, TokenKind.isIdentifier]⟩
      · refine ⟨by simpa [Source.tokens, Source.condition] using both.moves, ?_, ?_,
          both.projectionEnd⟩
        · simpa [Source.routed] using both.edits
        · have tables := both.tables
          simp only [List.append_nil] at tables
          simp [Source.tables, Source.routed, tables]
  · exact absurd answers not_yields_throw
  · exact absurd answers Step.not_yields_fail

section Equations

/-- The owner of a side is the one that its shape names. -/
theorem shape_sideOwner {phrases : List Phrase} {side : Expr} (shapes : Phrase.Shapes phrases side) :
    (∃ owner name, side = .property (.ofToken owner) name ∧ Equation.sideOwner phrases = [owner]) ∨
      ((∀ owner name, side ≠ .property owner name) ∧ Equation.sideOwner phrases = []) := by
  cases shapes with
  | number => exact .inr ⟨by simp, rfl⟩
  | identifier => exact .inr ⟨by simp, rfl⟩
  | @property owners owner point last =>
    exact .inl ⟨owner, .ofToken last, rfl, by simp [Equation.sideOwner]⟩
  | other _ noName =>
    refine .inr ⟨by simp, ?_⟩
    unfold Equation.sideOwner
    split
    · exact absurd rfl (noName _ _)
    · rfl

/-- A side of an equation is passed, and its owner recorded when it is a table. -/
theorem joinSide_reads {answer : Unit} (lexed : Token.AreLexed before.cursor.rest)
    (answers : Yields joinSide before answer after) :
    ∃ phrases : List Phrase, Equation.FitsSide after.cursor.rest phrases ∧
      (∀ phrase ∈ phrases, phrase.Guarded) ∧ Reads before (Phrase.text phrases)
        ((Equation.sideOwner phrases).filter (Token.namesTable before.statement.tables)) []
        after := by
  obtain ⟨⟨side, names⟩, between, first, rest⟩ := yields_bind.mp answers
  obtain ⟨phrases, inner, reads, consumes, _, rfl⟩ := reading_reads first
  dsimp only at reads rest
  have own : Token.AreLexed (Phrase.text phrases) := by
    have moves := reads.moves.rest
    rw [show before.cursor.rest = _ from moves] at lexed
    exact lexed.left
  have fits : Equation.FitsSide inner.cursor.rest phrases :=
    ⟨reads.shapes.ne_nil, reads.fit, reads.balanced own, reads.continues, consumes⟩
  refine ⟨phrases, ?_⟩
  rcases shape_sideOwner reads.shapes with ⟨owner, name, rfl, is⟩ | ⟨noOwner, none⟩
  · have edits := addOwnerEdit_reads rest
    have both := (Reads.move reads.moves).trans edits
    rw [List.append_nil] at both
    rw [is]
    refine ⟨?_, reads.guarded, both⟩
    have same := edits.moves.rest
    rw [show inner.cursor.rest = _ from same] at fits
    exact fits
  · rw [none]
    split at rest
    · exact absurd rfl (noOwner _ _)
    · obtain ⟨_, rfl⟩ := yields_pure.mp rest
      exact ⟨fits, reads.guarded, .move reads.moves⟩

/-- An equation is passed, and the word of the next one when another follows. -/
theorem joinEquation_reads {word : Token} {answer : Bool}
    (introduced : word.kind = .keyword .ON ∨ word.kind = .keyword .AND)
    (lexed : Token.AreLexed before.cursor.rest) (answers : Yields joinEquation before answer after) :
    ∃ (equation : Equation) (next : List Token), equation.word = word ∧
      ((answer = false ∧ next = []) ∨
        (answer = true ∧ ∃ following, next = [following] ∧ following.kind = .keyword .AND)) ∧
      equation.Fits (next ++ after.cursor.rest) ∧ equation.Guarded ∧
      ∃ passed, equation.tokens = word :: passed ∧ Reads before (passed ++ next)
        (equation.owners.filter (Token.namesTable before.statement.tables)) [] after := by
  obtain ⟨_, one, first, rest⟩ := yields_bind.mp answers
  obtain ⟨_, two, second, rest⟩ := yields_bind.mp rest
  obtain ⟨_, three, third, last⟩ := yields_bind.mp rest
  obtain ⟨left, fitsLeft, guardedLeft, readsLeft⟩ := joinSide_reads lexed first
  obtain ⟨cursor, scanned, rfl⟩ := yields_scan.mp second
  obtain ⟨sign, isSign, passesSign⟩ := expectSymbol_passes scanned (by simp)
  have readsSign := Reads.move passesSign.toMoves
  have lexedLeft := (readsLeft.lexed lexed).2
  obtain ⟨right, fitsRight, guardedRight, readsRight⟩ := joinSide_reads (readsSign.lexed lexedLeft).2 third
  obtain ⟨behind, scanned, rfl⟩ := yields_scan.mp last
  obtain ⟨next, moves, asked⟩ : ∃ next, Moves three.cursor next behind ∧
      ((answer = false ∧ next = []) ∨
        (answer = true ∧ ∃ following, next = [following] ∧ following.kind = .keyword .AND)) := by
    rcases skipKeyword_cases scanned with ⟨rfl, token, is, passes⟩ | ⟨rfl, _, rfl⟩
    · exact ⟨[token], passes.toMoves, .inr ⟨rfl, token, rfl, is⟩⟩
    · exact ⟨[], .refl _, .inl ⟨rfl, rfl⟩⟩
  have sameTables : one.statement.tables = before.statement.tables := by
    rw [readsLeft.tables, List.append_nil]
  have whole := ((readsLeft.trans readsSign).trans readsRight).trans (Reads.move moves)
  have guarded : Equation.Guarded ⟨word, left, sign, right⟩ := fun phrase member =>
    (List.mem_append.mp member).elim (guardedLeft phrase) (guardedRight phrase)
  refine ⟨⟨word, left, sign, right⟩, next, rfl, asked, ⟨introduced, isSign, ?_, ?_⟩, guarded,
    Phrase.text left ++ sign :: Phrase.text right, rfl, ?_⟩
  · have tokens : one.cursor.rest = sign :: Phrase.text right ++ (next ++ behind.rest) := by
      rw [passesSign.rest, readsRight.moves.rest, moves.rest]
      rfl
    rw [← tokens]
    exact fitsLeft
  · rw [← moves.rest]
    exact fitsRight
  · dsimp only at whole
    rw [sameTables] at whole
    simpa [Equation.owners] using whole

/-- The equations of a join condition are passed, the first of them behind `word` and each other one
behind `AND`. -/
theorem joinEquations_read {word : Token}
    (introduced : word.kind = .keyword .ON ∨ word.kind = .keyword .AND)
    (lexed : Token.AreLexed before.cursor.rest) (ran : Repeats joinEquation before after) :
    ∃ (first : Equation) (others : List Equation) (passed : List Token), first.word = word ∧
      (∀ equation ∈ others, equation.word.kind = .keyword .AND) ∧
      (first :: others).flatMap Equation.tokens = word :: passed ∧
      Token.Fit Equation.tokens Equation.Fits (first :: others) after.cursor.rest ∧
      (∀ equation ∈ first :: others, equation.Guarded) ∧
      Reads before passed (((first :: others).flatMap Equation.owners).filter
        (Token.namesTable before.statement.tables)) [] after := by
  induction ran generalizing word with
  | last answers =>
    obtain ⟨equation, next, same, asked, fits, guarded, passed, tokens, reads⟩ :=
      joinEquation_reads introduced lexed answers
    rcases asked with ⟨_, rfl⟩ | ⟨asked, _⟩
    · exact ⟨equation, [], passed, same, by simp, by simp [tokens], ⟨by simpa using fits, trivial⟩,
        by simpa using guarded, by simpa using reads⟩
    · cases asked
  | again answers _ ih =>
    obtain ⟨equation, next, same, asked, fits, guarded, passed, tokens, reads⟩ :=
      joinEquation_reads introduced lexed answers
    rcases asked with ⟨asked, _⟩ | ⟨_, following, rfl, is⟩
    · cases asked
    · obtain ⟨second, others, rest, isSecond, conjoined, text, fit, guardedMore, more⟩ :=
        ih (.inr is) (reads.lexed lexed).2
      rw [reads.tables, List.append_nil] at more
      refine ⟨equation, second :: others, passed ++ following :: rest, same,
        List.forall_mem_cons.mpr ⟨by rw [isSecond, is], conjoined⟩, ?_, ⟨?_, fit⟩,
        List.forall_mem_cons.mpr ⟨guarded, guardedMore⟩, ?_⟩
      · rw [List.flatMap_cons, text, tokens]
        rfl
      · rw [text, List.cons_append, ← more.moves.rest]
        exact fits
      · have both := reads.trans more
        rw [← List.filter_append] at both
        simpa using both

end Equations

section Joins

/-- The condition of a join is passed: equations, or columns, or nothing. -/
theorem condition_reads {answer : Bool} (lexed : Token.AreLexed before.cursor.rest)
    (answers : Yields (do
      if ← skipKeyword .ON then Step.whileTrue joinEquation
      else if ← skipKeyword .USING then
        let _ ← group
      return true : AnalysisStep Bool) before answer after) :
    ∃ equations columns,
      Token.Fit Equation.tokens Equation.Fits equations (columns ++ after.cursor.rest) ∧
      Equation.Conjoined equations ∧
      (columns = [] ∨ ∃ word group, columns = word :: group ∧
        word.kind = .keyword .USING ∧ equations = [] ∧ (group = [] ∨ Token.IsGroup group)) ∧
      (∀ equation ∈ equations, equation.Guarded) ∧
      Reads before (equations.flatMap Equation.tokens ++ columns)
        ((equations.flatMap Equation.owners).filter (Token.namesTable before.statement.tables)) []
        after ∧ answer = true := by
  obtain ⟨found, between, first, rest⟩ := yields_bind.mp answers
  obtain ⟨cursor, scanned, rfl⟩ := yields_scan.mp first
  rcases skipKeyword_cases scanned with ⟨rfl, word, is, passes⟩ | ⟨rfl, _, rfl⟩
  · rw [if_pos rfl] at rest
    obtain ⟨_, last, ran, ended⟩ := yields_bind.mp rest
    obtain ⟨rfl, rfl⟩ := yields_pure.mp ended
    have reads := Reads.move passes.toMoves
    obtain ⟨equation, others, passed, same, conjoined, text, fit, guarded, more⟩ :=
      joinEquations_read (.inl is) (reads.lexed lexed).2 (repeats_of_whileTrue ran)
    refine ⟨equation :: others, [], by simpa using fit, ⟨by rw [same, is], conjoined⟩, .inl rfl,
      guarded, ?_, rfl⟩
    rw [text]
    simpa using reads.trans more
  · rw [if_neg Bool.false_ne_true] at rest
    obtain ⟨found, between, second, rest⟩ := yields_bind.mp rest
    obtain ⟨cursor, scanned, rfl⟩ := yields_scan.mp second
    rcases skipKeyword_cases scanned with ⟨rfl, word, is, passes⟩ | ⟨rfl, _, rfl⟩
    · rw [if_pos rfl] at rest
      obtain ⟨_, last, grouped, ended⟩ := yields_bind.mp rest
      obtain ⟨rfl, rfl⟩ := yields_pure.mp ended
      obtain ⟨behind, scanned, rfl⟩ := yields_scan.mp grouped
      rcases group_cases scanned with ⟨_, _, rfl⟩ | ⟨group, closing, more, _⟩
      · exact ⟨[], [word], trivial, trivial, .inr ⟨word, [], rfl, is, rfl, .inl rfl⟩, by simp,
          by simpa using Reads.move passes.toMoves, rfl⟩
      · exact ⟨[], word :: group, trivial, trivial, .inr ⟨word, group, rfl, is, rfl, .inr closing⟩, by simp,
          by simpa using Reads.move (passes.toMoves.trans more.toMoves), rfl⟩
    · rw [if_neg Bool.false_ne_true] at rest
      obtain ⟨rfl, rfl⟩ := yields_pure.mp rest
      exact ⟨[], [], trivial, trivial, .inl rfl, by simp, by simpa using Reads.refl _, rfl⟩

/-- A table behind its introducer is passed, and then its condition. -/
theorem joined_reads {introducer : List Token} {answer : Unit} {start between : Analysis}
    (introduces : introducer.map Token.kind ∈ Source.introducers)
    (introduced : Reads start introducer [] [] before) (first : Yields source before answer between)
    {equations : List Equation} {columns : List Token}
    (fit : Token.Fit Equation.tokens Equation.Fits equations (columns ++ after.cursor.rest))
    (conjoined : Equation.Conjoined equations)
    (are : columns = [] ∨ ∃ word group, columns = word :: group ∧
      word.kind = .keyword .USING ∧ equations = [] ∧ (group = [] ∨ Token.IsGroup group))
    (guarded : ∀ equation ∈ equations, equation.Guarded)
    (condition : Reads between (equations.flatMap Equation.tokens ++ columns)
      ((equations.flatMap Equation.owners).filter (Token.namesTable between.statement.tables)) []
      after) :
    ∃ table : Source, table.introducer = introducer ∧
      table.condition = equations.flatMap Equation.tokens ++ columns ∧
      table.Fits after.cursor.rest ∧ table.Guarded ∧
      Reads start table.tokens (table.anchors start.statement.tables) table.tables after := by
  obtain ⟨table, noIntroducer, noEquations, noColumns, named, ended, given, reads⟩ := source_reads first
  have behind := condition.moves.rest
  refine ⟨{ table with introducer, equations, columns }, rfl, rfl,
    ⟨introduces, named, fun none => ?_, ?_, fit, conjoined, are⟩, guarded, ?_⟩
  · rw [List.append_assoc]
    exact behind ▸ ended none
  · rw [kind_eq_frontKind, behind] at given
    exact given
  · have tables : before.statement.tables = start.statement.tables := by
      rw [introduced.tables, List.append_nil]
    have registered : between.statement.tables = start.statement.tables ++ table.tables := by
      rw [reads.tables, tables]
    rw [registered] at condition
    have whole := (introduced.trans reads).trans condition
    simpa [Source.tokens, Source.condition, Source.anchors, Source.tables, Source.routed,
      noIntroducer, noEquations, noColumns] using whole

/-- A join is passed with its table and its condition. -/
theorem joinRound_reads {answer : Bool} (lexed : Token.AreLexed before.cursor.rest)
    (answers : Yields joinRound before answer after) :
    (answer = true ∧ ∃ table : Source, table.introducer.map Token.kind ∈ joinOperators ∧
      table.Fits after.cursor.rest ∧ table.Guarded ∧
      Reads before table.tokens (table.anchors before.statement.tables) table.tables after) ∨
      (answer = false ∧ Reads before [] [] [] after) := by
  unfold joinRound at answers
  obtain ⟨joined, between, first, rest⟩ := yields_bind.mp answers
  obtain ⟨cursor, scanned, rfl⟩ := yields_scan.mp first
  rcases join_cases scanned with ⟨rfl, introducer, passes, joins⟩ | ⟨rfl, rfl⟩
  · have introduced := Reads.move passes.toMoves
    rw [if_pos rfl] at rest
    obtain ⟨_, middle, table, rest⟩ := yields_bind.mp rest
    have lexedBehind := (introduced.lexed lexed).2
    obtain ⟨_, _, _, _, _, _, _, reads⟩ := source_reads table
    obtain ⟨equations, columns, fit, conjoined, columnsAre, guarded, condition, rfl⟩ :=
      condition_reads (reads.lexed lexedBehind).2 rest
    obtain ⟨table, same, _, fits, guarded, reads⟩ := joined_reads (List.mem_cons_of_mem _ joins)
      introduced table fit conjoined columnsAre guarded condition
    exact .inl ⟨rfl, table, by rw [same]; exact joins, fits, guarded, reads⟩
  · rw [if_neg Bool.false_ne_true] at rest
    obtain ⟨rfl, rfl⟩ := yields_pure.mp rest
    exact .inr ⟨rfl, .refl _⟩

/-- The joins of a `FROM` clause are passed. -/
theorem joins_read (lexed : Token.AreLexed before.cursor.rest) (ran : Repeats joinRound before after) :
    ∃ sources : List Source, (∀ source ∈ sources, source.introducer.map Token.kind ∈ joinOperators) ∧
      Token.Fit Source.tokens Source.Fits sources after.cursor.rest ∧
      (∀ source ∈ sources, source.Guarded) ∧ Reads before (sources.flatMap Source.tokens)
        (Source.allAnchors before.statement.tables sources) (sources.flatMap Source.tables)
        after := by
  induction ran with
  | last answers =>
    rcases joinRound_reads lexed answers with ⟨asked, _⟩ | ⟨_, reads⟩
    · cases asked
    · exact ⟨[], by simp, trivial, by simp, reads⟩
  | again answers _ ih =>
    rcases joinRound_reads lexed answers with ⟨_, table, joins, fits, guarded, reads⟩ | ⟨asked, _⟩
    · obtain ⟨sources, joinsMore, fit, guardedMore, more⟩ := ih (reads.lexed lexed).2
      refine ⟨table :: sources, List.forall_mem_cons.mpr ⟨joins, joinsMore⟩, ⟨?_, fit⟩,
        List.forall_mem_cons.mpr ⟨guarded, guardedMore⟩, ?_⟩
      · rw [← more.moves.rest]
        exact fits
      · rw [reads.tables] at more
        exact reads.trans more
    · cases asked

/-- The tables of a `FROM` clause are passed, behind the word that introduces them. -/
theorem sources_read {start : Analysis} {word : Token} {answer : Unit}
    (is : word.kind = .keyword .FROM) (introduced : Reads start [word] [] [] before)
    (lexed : Token.AreLexed before.cursor.rest) (answers : Yields sources before answer after) :
    ∃ sources : List Source, Source.Joined sources ∧
      Token.Fit Source.tokens Source.Fits sources after.cursor.rest ∧
      (∀ source ∈ sources, source.Guarded) ∧ Reads start (sources.flatMap Source.tokens)
        (Source.allAnchors start.statement.tables sources) (sources.flatMap Source.tables)
        after := by
  obtain ⟨_, between, first, rest⟩ := yields_bind.mp answers
  have noEquations : Token.Fit Equation.tokens Equation.Fits [] ([] ++ between.cursor.rest) :=
    trivial
  obtain ⟨table, same, noCondition, fits, guarded, reads⟩ := joined_reads
    (by simp [is, Source.introducers]) introduced first noEquations trivial (.inl rfl) (by simp)
    (Reads.refl between)
  obtain ⟨_, _, _, _, _, _, _, own⟩ := source_reads first
  obtain ⟨sources, joins, fit, guardedMore, more⟩ :=
    joins_read (own.lexed lexed).2 (repeats_of_whileTrue rest)
  refine ⟨table :: sources, ⟨by simp [same, is], noCondition, joins⟩, ⟨?_, fit⟩,
    List.forall_mem_cons.mpr ⟨guarded, guardedMore⟩, ?_⟩
  · rw [← more.moves.rest]
    exact fits
  · rw [reads.tables] at more
    exact reads.trans more

end Joins

end AnalysisStep

end SelectRouting
