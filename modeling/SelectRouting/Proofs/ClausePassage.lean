import SelectRouting.Proofs.ClauseGrammar

/-!
# What the clause readers pass

Every clause reader passes parts of a query, records an edit for each token in them that names a
table, and registers their tables (`Analysis.Reads`). The parts that a reader of the later clauses
passes are in the language of its clause (`Analysis.PassesClauses`). The descriptions of the readers
add up to the parts of the whole query (`AnalysisStep.select_reads`).
-/

namespace SelectRouting

/-- The reader passes the tokens, records the edits of `anchors` and registers `tables`. -/
structure Analysis.Reads (before : Analysis) (tokens anchors : List Token) (tables : List Table)
    (after : Analysis) : Prop where
  moves : Cursor.Moves before.cursor tokens after.cursor
  edits : after.statement.edits = before.statement.edits ++ anchors.map Token.edit
  tables : after.statement.tables = before.statement.tables ++ tables
  projectionEnd : after.statement.projectionEnd = before.statement.projectionEnd

theorem Scan.AliasTokens.eq_aliasIn {tokens : List Token} {answer : Option String}
    {next : TokenKind} (named : AliasTokens tokens answer next) :
    answer = Token.aliasIn tokens := by
  cases named with
  | absent => rfl
  | dangling word => simp [Token.aliasIn, word]
  | introduced => rfl
  | bare reads =>
    have noWord : ∀ word, ‹Token›.kind ≠ .keyword word := by
      intro word is
      simp [is, TokenKind.readsAsAlias] at reads
    simp [Token.aliasIn, noWord]

namespace Analysis

theorem Reads.refl (state : Analysis) : Reads state [] [] [] state :=
  ⟨.refl _, by simp, by simp, rfl⟩

theorem Reads.trans {first second third : Analysis} {one two oneAnchors twoAnchors : List Token}
    {oneTables twoTables : List Table} (left : Reads first one oneAnchors oneTables second)
    (right : Reads second two twoAnchors twoTables third) :
    Reads first (one ++ two) (oneAnchors ++ twoAnchors) (oneTables ++ twoTables) third where
  moves := left.moves.trans right.moves
  edits := by rw [right.edits, left.edits, List.map_append, List.append_assoc]
  tables := by rw [right.tables, left.tables, List.append_assoc]
  projectionEnd := right.projectionEnd.trans left.projectionEnd

/-- Moving the cursor passes tokens and records nothing. -/
theorem Reads.move {before : Analysis} {tokens : List Token} {cursor : Cursor}
    (moves : Cursor.Moves before.cursor tokens cursor) :
    Reads before tokens [] [] { before with cursor } :=
  ⟨moves, by simp, by simp, rfl⟩

/-- The tokens that are left behind a reader are tokens of the text when those before it are. -/
theorem Reads.lexed {before after : Analysis} {tokens anchors : List Token} {tables : List Table}
    (reads : Reads before tokens anchors tables after)
    (lexed : Token.AreLexed before.cursor.rest) :
    Token.AreLexed tokens ∧ Token.AreLexed after.cursor.rest := by
  rw [reads.moves.rest] at lexed
  exact ⟨lexed.left, lexed.right⟩

end Analysis

/-- The reader passes parts of the later clauses, and records their owners that are tables. -/
structure Analysis.ReadsPieces (before : Analysis) (pieces : List Piece) (after : Analysis) : Prop
    extends Analysis.Reads before (pieces.flatMap Piece.tokens)
      ((pieces.flatMap Piece.qualifiers).filter (Token.namesTable before.statement.tables)) []
      after where
  fit : Token.Fit Piece.tokens Piece.Fits pieces after.cursor.rest
  guarded : ∀ piece ∈ pieces, piece.Guarded

namespace Analysis

theorem ReadsPieces.refl (state : Analysis) : ReadsPieces state [] state :=
  ⟨.refl state, trivial, by simp⟩

theorem ReadsPieces.trans {first second third : Analysis} {one two : List Piece}
    (left : ReadsPieces first one second) (right : ReadsPieces second two third) :
    ReadsPieces first (one ++ two) third where
  toReads := by
    have both := left.toReads.trans right.toReads
    rw [left.tables, List.append_nil, ← List.filter_append] at both
    rw [List.flatMap_append, List.flatMap_append]
    exact both
  fit := by
    refine .append ?_ right.fit
    rw [← right.moves.rest]
    exact left.fit
  guarded piece member := (List.mem_append.mp member).elim (left.guarded piece) (right.guarded piece)

/-- Words that are passed are a part of the clauses. -/
theorem ReadsPieces.words {before : Analysis} {tokens : List Token} {cursor : Cursor}
    (moves : Cursor.Moves before.cursor tokens cursor)
    (are : ∀ token ∈ tokens, token.kind = .symbol .comma ∨
      ∃ word ∈ Piece.clauseWords, token.kind = .keyword word) :
    ReadsPieces before [.words tokens] { before with cursor } where
  toReads := by simpa [Piece.tokens, Piece.qualifiers] using Reads.move moves
  fit := ⟨are, trivial⟩
  guarded := by simp [Piece.Guarded]

theorem ReadsPieces.sameTables {before after : Analysis} {pieces : List Piece}
    (reads : ReadsPieces before pieces after) :
    after.statement.tables = before.statement.tables := by
  rw [reads.tables, List.append_nil]

/-- The reader passes parts of the later clauses that are in the language, when the tokens before it
are tokens of a text. -/
def PassesClauses (language : Language Piece) (before after : Analysis) : Prop :=
  Token.AreLexed before.cursor.rest → ∃ pieces ∈ language, ReadsPieces before pieces after

theorem PassesClauses.refl (state : Analysis) : PassesClauses 1 state state := fun _ =>
  ⟨[], Language.nil_mem_one, .refl state⟩

section Languages
variable {first second third : Analysis} {language other : Language Piece}

theorem PassesClauses.trans (left : PassesClauses language first second)
    (right : PassesClauses other second third) : PassesClauses (language * other) first third := by
  intro lexed
  obtain ⟨one, among, reads⟩ := left lexed
  obtain ⟨two, amongMore, more⟩ := right (reads.lexed lexed).2
  exact ⟨one ++ two, Language.append_mem_mul among amongMore, reads.trans more⟩

theorem PassesClauses.mono (passes : PassesClauses language first second)
    (within : ∀ pieces ∈ language, pieces ∈ other) : PassesClauses other first second := by
  intro lexed
  obtain ⟨pieces, among, reads⟩ := passes lexed
  exact ⟨pieces, within pieces among, reads⟩

/-- A clause that may be missing is missing. -/
theorem PassesClauses.missing (passes : PassesClauses 1 first second) :
    PassesClauses (1 + language) first second :=
  passes.mono fun _ => .inl

/-- A clause that may be missing stands there. -/
theorem PassesClauses.standing (passes : PassesClauses language first second) :
    PassesClauses (1 + language) first second :=
  passes.mono fun _ => .inr

/-- What is noted beside the edits and the tables passes nothing. -/
theorem PassesClauses.note (passes : PassesClauses language first second)
    (cursor : third.cursor = second.cursor)
    (edits : third.statement.edits = second.statement.edits)
    (tables : third.statement.tables = second.statement.tables)
    (projectionEnd : third.statement.projectionEnd = second.statement.projectionEnd) :
    PassesClauses language first third := by
  have noted : PassesClauses 1 second third := by
    intro _
    refine ⟨[], Language.nil_mem_one,
      ⟨⟨?_, by simp [edits], by simp [tables], projectionEnd⟩, trivial, by simp⟩⟩
    rw [cursor]
    exact .refl _
  simpa using passes.trans noted

end Languages

end Analysis

namespace AnalysisStep
open Scan Step Cursor Analysis
open scoped Computability

variable {before after : Analysis}

@[simp] theorem cursor_analysis (state : Analysis) : HasCursor.cursor state = state.cursor := rfl

@[simp] theorem setCursor_analysis (cursor : Cursor) (state : Analysis) :
    HasCursor.setCursor cursor state = { state with cursor } := rfl

theorem yields_scan {α : Type} {scan : Scan α} {answer : α} :
    Yields (liftM scan : AnalysisStep α) before answer after ↔
      ∃ cursor, Yields scan before.cursor answer cursor ∧ after = { before with cursor } :=
  yields_onCursor

@[simp] theorem yields_statement {α : Type} {property : Statement → α} {answer : α} :
    Yields (statement property) before answer after ↔
      answer = property before.statement ∧ after = before := by
  constructor
  · intro answers
    cases answers
    exact ⟨rfl, rfl⟩
  · rintro ⟨rfl, rfl⟩
    rfl

@[simp] theorem yields_change {update : Statement → Statement} {answer : Unit} :
    Yields (change update) before answer after ↔
      after = { before with statement := update before.statement } := by
  constructor
  · intro answers
    cases answers
    rfl
  · rintro rfl
    rfl

@[simp] theorem yields_warn {warning : Warning} {answer : Unit} :
    Yields (warn warning) before answer after ↔
      after = { before with warnings := before.warnings ++ [warning] } := by
  constructor
  · intro answers
    cases answers
    rfl
  · rintro rfl
    rfl

/-- A reader of expressions runs on the cursor and answers the qualifiers that it met. -/
theorem yields_reading {α : Type} {reader : ExprStep α} {answer : α × List Name} :
    Yields (reading reader) before answer after ↔
      ∃ inner, Yields reader { cursor := before.cursor } answer.1 inner ∧
        answer.2 = inner.qualifiers ∧ after = { before with cursor := inner.cursor } := by
  unfold Yields reading
  cases reader { cursor := before.cursor } with
  | mk outcome inner =>
    cases outcome with
    | error error =>
      constructor
      · intro answers
        cases answers
      · rintro ⟨_, answers, _⟩
        cases answers
    | ok value =>
      constructor
      · intro answers
        cases answers
        exact ⟨inner, rfl, rfl, rfl⟩
      · rintro ⟨_, answers, same, rfl⟩
        cases answers
        cases answer
        cases same
        rfl

section Anchors

theorem findTable?_isSome (statement : Statement) (token : Token) :
    (statement.findTable? (Name.ofToken token).value).isSome = token.namesTable statement.tables := by
  rw [Bool.eq_iff_iff, Statement.findTable?, List.find?_isSome, Token.namesTable, List.any_eq_true]
  rfl

/-- The edit of a table name is recorded. -/
theorem addEdit_reads {token : Token} {answer : Unit}
    (answers : Yields (addEdit (.tableName token.start token.lexeme)) before answer after) :
    Reads before [] [token] [] after := by
  obtain rfl := yields_change.mp answers
  exact ⟨.refl _, rfl, by simp, rfl⟩

/-- The edit of an owner is recorded when it is a table. -/
theorem addOwnerEdit_reads {token : Token} {answer : Unit}
    (answers : Yields (addOwnerEdit (.ofToken token)) before answer after) :
    Reads before [] ([token].filter (Token.namesTable before.statement.tables)) [] after := by
  unfold addOwnerEdit at answers
  obtain ⟨found, _, looked, rest⟩ := yields_bind.mp answers
  obtain ⟨rfl, rfl⟩ := yields_statement.mp looked
  rw [findTable?_isSome] at rest
  rcases yields_ite.mp rest with ⟨isTable, added⟩ | ⟨noTable, skipped⟩
  · rw [List.filter_cons_of_pos isTable]
    exact addEdit_reads added
  · obtain ⟨_, rfl⟩ := yields_pure.mp skipped
    rw [List.filter_cons_of_neg noTable]
    exact .refl _

/-- The edits of those owners are recorded that are tables. -/
theorem addOwnerEdits_reads {tokens : List Token} {answer : PUnit}
    (answers : Yields ((tokens.map Name.ofToken).forM addOwnerEdit) before answer after) :
    Reads before [] (tokens.filter (Token.namesTable before.statement.tables)) [] after := by
  induction tokens generalizing before with
  | nil =>
    obtain ⟨_, rfl⟩ := yields_pure.mp answers
    exact .refl _
  | cons token tokens ih =>
    obtain ⟨_, between, first, rest⟩ := yields_bind.mp answers
    have one := addOwnerEdit_reads first
    have two := ih rest
    rw [one.tables, List.append_nil] at two
    have both := one.trans two
    rwa [← List.filter_append] at both

end Anchors

/-- An alias is passed. -/
theorem aliasName_reads {answer : Option String}
    (answers : Yields (liftM aliasName : AnalysisStep (Option String)) before answer after) :
    ∃ named, answer = Token.aliasIn named ∧
      AliasTokens named (Token.aliasIn named) after.cursor.kind ∧ Reads before named [] [] after := by
  obtain ⟨cursor, scanned, rfl⟩ := yields_scan.mp answers
  obtain ⟨named, are, passes⟩ := aliasName_cases scanned
  have same := are.eq_aliasIn
  rw [same] at are
  exact ⟨named, same, are, .move passes.toMoves⟩

section Expressions
variable {power : Nat} {expr : Expr}

/-- An expression is read as phrases, and the qualifiers that are answered are those of the
phrases. -/
theorem reading_reads {answer : Expr × List Name}
    (answers : Yields (reading (ExprStep.expressionOf power)) before answer after) :
    ∃ phrases inner, ExprState.ReadsAs power { cursor := before.cursor } phrases answer.1 inner ∧
      ExprStep.Consumes power (Phrase.text phrases) inner.cursor.rest ∧
      answer.2 = (phrases.flatMap Phrase.qualifiers).map Name.ofToken ∧
      after = { before with cursor := inner.cursor } := by
  obtain ⟨inner, ran, same, rfl⟩ := yields_reading.mp answers
  obtain ⟨phrases, reads⟩ := ExprStep.reads_expressionOf ran
  refine ⟨phrases, inner, reads, .of_yields ran reads, ?_, rfl⟩
  rw [same, reads.qualifiers]
  rfl

/-- The phrases of a whole expression are a part of the clauses where they are read. -/
theorem fits_expression {before : Analysis} {phrases : List Phrase} {inner : ExprState}
    (reads : ExprState.ReadsAs power { cursor := before.cursor } phrases expr inner)
    (consumes : ExprStep.Consumes 0 (Phrase.text phrases) inner.cursor.rest)
    (lexed : Token.AreLexed before.cursor.rest) :
    Token.Fit Piece.tokens Piece.Fits [.expression phrases] inner.cursor.rest := by
  have own : Token.AreLexed (Phrase.text phrases) := by
    have moves := reads.moves.rest
    rw [show before.cursor.rest = _ from moves] at lexed
    exact lexed.left
  exact ⟨⟨reads.shapes.ne_nil, reads.fit, reads.balanced own, consumes⟩, trivial⟩

/-- An expression is read, and its qualifiers that are tables are recorded. -/
theorem expressionWithEdits_passes (answers : Yields expressionWithEdits before expr after) :
    PassesClauses Piece.whole before after := by
  intro lexed
  unfold expressionWithEdits at answers
  obtain ⟨⟨shape, names⟩, between, first, rest⟩ := yields_bind.mp answers
  obtain ⟨_, last, added, ended⟩ := yields_bind.mp rest
  obtain ⟨rfl, rfl⟩ := yields_pure.mp ended
  obtain ⟨phrases, inner, reads, consumes, same, rfl⟩ := reading_reads first
  dsimp only at same added
  rw [same] at added
  have edits := addOwnerEdits_reads added
  have both := (Reads.move reads.moves).trans edits
  refine ⟨[.expression phrases], ⟨phrases, rfl⟩,
    ⟨?_, ?_, by simpa [Piece.Guarded] using reads.guarded⟩⟩
  · simpa [Piece.tokens, Piece.qualifiers] using both
  · have fit := fits_expression reads consumes lexed
    have same := edits.moves.rest
    rw [show inner.cursor.rest = _ from same] at fit
    exact fit

/-- Without tables an expression is read and nothing recorded. -/
theorem expression_passes (none : before.statement.tables = []) {answer : Expr × List Name}
    (answers : Yields (reading ExprStep.expression) before answer after) :
    PassesClauses Piece.whole before after := by
  intro lexed
  obtain ⟨phrases, inner, reads, consumes, _, rfl⟩ := reading_reads answers
  refine ⟨[.expression phrases], ⟨phrases, rfl⟩, ⟨?_, fits_expression reads consumes lexed,
    by simpa [Piece.Guarded] using reads.guarded⟩⟩
  have noTable : ∀ token, Token.namesTable before.statement.tables token = false := by
    simp [Token.namesTable, none]
  have unrecorded : (List.flatMap Piece.qualifiers [.expression phrases]).filter
      (Token.namesTable before.statement.tables) = [] := by
    simp [noTable]
  rw [unrecorded]
  simpa [Piece.tokens] using Reads.move reads.moves

end Expressions

section Words
variable {word : Keyword}

/-- A word of the clauses that is passed is one of those that are asked for. -/
theorem word_passes {words : List Keyword} {token : Token} {cursor : Cursor}
    (passes : Passes before.cursor [token] cursor) (member : word ∈ words)
    (is : token.kind = .keyword word) (among : word ∈ Piece.clauseWords) :
    PassesClauses (Piece.word words) before { before with cursor } := fun _ =>
  ⟨[.words [token]], ⟨token, rfl, word, member, is⟩,
    .words passes.toMoves (by simpa [is] using among)⟩

/-- Words of the clauses are passed where one stands. -/
theorem skipAnyKeyword_passes {words : List Keyword} {answer : Bool}
    (answers : Yields (liftM (skipAnyKeyword words) : AnalysisStep Bool) before answer after)
    (among : ∀ word ∈ words, word ∈ Piece.clauseWords) :
    PassesClauses (if answer then Piece.word words else 1) before after := by
  obtain ⟨cursor, scanned, rfl⟩ := yields_scan.mp answers
  rcases skipAnyKeyword_cases scanned with ⟨rfl, word, member, token, is, passes⟩ | ⟨rfl, _, rfl⟩
  · exact word_passes passes member is (among word member)
  · exact .refl _

theorem skipKeyword_passes {answer : Bool}
    (answers : Yields (liftM (skipKeyword word) : AnalysisStep Bool) before answer after)
    (among : word ∈ Piece.clauseWords) :
    PassesClauses (if answer then Piece.word [word] else 1) before after :=
  skipAnyKeyword_passes answers (by simpa using among)

/-- A word of the clauses is passed where it is required. -/
theorem expectKeyword_passesClauses {answer : Unit}
    (answers : Yields (liftM (expectKeyword word) : AnalysisStep Unit) before answer after)
    (among : word ∈ Piece.clauseWords) : PassesClauses (Piece.word [word]) before after := by
  obtain ⟨cursor, scanned, rfl⟩ := yields_scan.mp answers
  obtain ⟨token, is, passes⟩ := expectKeyword_passes scanned
  exact word_passes passes (List.mem_singleton_self word) is among

/-- A clause behind its word is passed, or nothing where the word does not stand. -/
theorem introduced_passes {language : Language Piece} {clause : AnalysisStep Unit} {answer : Unit}
    (among : word ∈ Piece.clauseWords)
    (passes : ∀ {between}, Yields clause between answer after → PassesClauses language between after)
    (answers : Yields (do if ← skipKeyword word then clause : AnalysisStep Unit) before answer
      after) : PassesClauses (1 + Piece.word [word] * language) before after := by
  obtain ⟨found, between, first, rest⟩ := yields_bind.mp answers
  have skipped := skipKeyword_passes first among
  rcases yields_ite.mp rest with ⟨yes, rest⟩ | ⟨no, rest⟩
  · rw [if_pos yes] at skipped
    exact (skipped.trans (passes rest)).standing
  · rw [if_neg no] at skipped
    obtain ⟨_, rfl⟩ := yields_pure.mp rest
    exact skipped.missing

/-- A comma between keys is passed where it stands. -/
theorem skipComma_passes {answer : Bool}
    (answers : Yields (liftM (skipSymbol .comma) : AnalysisStep Bool) before answer after) :
    PassesClauses (if answer then Piece.comma else 1) before after := by
  obtain ⟨cursor, scanned, rfl⟩ := yields_scan.mp answers
  rcases skipSymbol_cases scanned (by simp) with ⟨rfl, token, is, passes⟩ | ⟨rfl, _, rfl⟩
  · exact fun _ => ⟨_, ⟨token, rfl, is⟩, .words passes.toMoves (by simp [is])⟩
  · exact .refl _

/-- A direction is passed where one stands. -/
theorem direction_passes {answer : Direction}
    (answers : Yields (liftM direction : AnalysisStep Direction) before answer after) :
    PassesClauses (1 + Piece.word [.ASC, .DESC]) before after := by
  obtain ⟨cursor, scanned, rfl⟩ := yields_scan.mp answers
  obtain ⟨descends, between, first, rest⟩ := yields_bind.mp scanned
  rcases skipKeyword_cases first with ⟨rfl, token, is, passes⟩ | ⟨rfl, _, rfl⟩
  · obtain ⟨_, rfl⟩ := yields_pure.mp rest
    exact (word_passes passes (by simp) is (by simp [Piece.clauseWords])).standing
  · rw [if_neg Bool.false_ne_true] at rest
    obtain ⟨_, last, second, rest⟩ := yields_bind.mp rest
    obtain ⟨_, rfl⟩ := yields_pure.mp rest
    rcases skipKeyword_cases second with ⟨_, token, is, passes⟩ | ⟨_, _, rfl⟩
    · exact (word_passes passes (by simp) is (by simp [Piece.clauseWords])).standing
    · exact PassesClauses.missing (.refl _)

end Words

section Keys

/-- A loop passes what its body passes when it asks for another run, again and again, and then what
the body passes at the end. -/
theorem repeats_passes {again last : Language Piece} {body : AnalysisStep Bool}
    (passes : ∀ {before after : Analysis} {answer : Bool}, Yields body before answer after →
      PassesClauses (if answer then again else last) before after)
    (ran : Repeats body before after) : PassesClauses (again∗ * last) before after := by
  induction ran with
  | last answers =>
    have within : last ≤ again∗ * last := le_mul_of_one_le_left' one_le_kstar
    exact (passes answers).mono fun _ among => within among
  | again answers _ ih =>
    have within : again * (again∗ * last) ≤ again∗ * last := by
      rw [← mul_assoc]
      exact mul_le_mul_left mul_kstar_le_kstar last
    exact ((passes answers).trans ih).mono fun _ among => within among

/-- A key and its direction are passed. -/
theorem keyItem_passes {answer : Expr × Direction × String}
    (answers : Yields keyItem before answer after) : PassesClauses Piece.key before after := by
  unfold keyItem at answers
  rw [Step.yields_look_bind] at answers
  obtain ⟨_, between, first, rest⟩ := yields_bind.mp answers
  rw [Step.yields_look_bind] at rest
  obtain ⟨_, last, second, rest⟩ := yields_bind.mp rest
  obtain ⟨_, rfl⟩ := yields_pure.mp rest
  exact (expressionWithEdits_passes first).trans (direction_passes second)

/-- The alias of a key is looked up without a change. -/
theorem columnKey_unmoved {owner : Option Name} {name : Name} {direction : Direction}
    {key : ColumnKey} (answers : Yields (columnKey owner name direction) before key after) :
    after = before := by
  obtain ⟨_, _, looked, rest⟩ := yields_bind.mp answers
  obtain ⟨_, rfl⟩ := yields_pure.mp rest
  exact (yields_statement.mp looked).2

/-- A key that is a column is noted without a change. -/
theorem columnKey_noted {κ : Type} {owner : Option Name} {name : Name} {direction : Direction}
    {make : ColumnKey → κ} {answer : Option κ}
    (answers : Yields (do return some (make (← columnKey owner name direction))) before answer
      after) : after = before := by
  obtain ⟨key, _, looked, rest⟩ := yields_bind.mp answers
  obtain ⟨_, rfl⟩ := yields_pure.mp rest
  exact columnKey_unmoved looked

/-- A warning is noted behind what was passed. -/
theorem warn_passes {κ : Type} {warning : Warning} {answer : Option κ} {language : Language Piece}
    {first : Analysis} (passes : PassesClauses language first before)
    (answers : Yields (do warn warning; return none) before answer after) :
    PassesClauses language first after := by
  obtain ⟨_, _, noted, rest⟩ := yields_bind.mp answers
  obtain ⟨_, rfl⟩ := yields_pure.mp rest
  obtain rfl := yields_warn.mp noted
  exact passes.note rfl rfl rfl rfl

/-- An item of `ORDER BY` is passed. -/
theorem orderItem_passes {answer : Option OrderKey} (answers : Yields orderItem before answer after) :
    PassesClauses Piece.key before after := by
  obtain ⟨⟨expr, direction, text⟩, between, first, rest⟩ := yields_bind.mp answers
  have passes := keyItem_passes first
  dsimp only at rest
  split at rest
  · obtain ⟨_, rfl⟩ := yields_pure.mp rest
    exact passes
  · rwa [columnKey_noted rest]
  · rwa [columnKey_noted rest]
  · exact warn_passes passes rest

/-- An item of `GROUP BY` is passed. -/
theorem groupItem_passes {answer : Option ColumnKey}
    (answers : Yields groupItem before answer after) : PassesClauses Piece.key before after := by
  obtain ⟨⟨expr, direction, text⟩, between, first, rest⟩ := yields_bind.mp answers
  have passes := keyItem_passes first
  dsimp only at rest
  split at rest
  · rwa [columnKey_noted rest]
  · rwa [columnKey_noted rest]
  · exact warn_passes passes rest

/-- Behind a key a comma is passed where another key follows. -/
theorem keyRound_passes {first : Analysis} {answer : Bool}
    (passes : PassesClauses Piece.key first before)
    (answers : Yields (liftM (skipSymbol .comma) : AnalysisStep Bool) before answer after) :
    PassesClauses (if answer then Piece.key * Piece.comma else Piece.key) first after := by
  have both := passes.trans (skipComma_passes answers)
  cases answer with
  | true => exact both
  | false => simpa using both

/-- An item of `ORDER BY` and the comma behind it are passed. -/
theorem orderRound_passes {dialect : Dialect} (noNulls : dialect.nullsPlacement = false)
    {answer : Bool} (answers : Yields (orderRound dialect) before answer after) :
    PassesClauses (if answer then Piece.key * Piece.comma else Piece.key) before after := by
  obtain ⟨key, between, first, rest⟩ := yields_bind.mp answers
  unfold dialectOrderItem at first
  obtain ⟨_, middle, item, placed⟩ := yields_bind.mp first
  rw [noNulls, if_neg Bool.false_ne_true, yields_pure] at placed
  obtain ⟨rfl, rfl⟩ := placed
  have passes := orderItem_passes item
  split at rest
  · obtain ⟨_, _, noted, rest⟩ := yields_bind.mp rest
    obtain rfl := yields_change.mp noted
    refine keyRound_passes ?_ rest
    exact passes.note rfl rfl rfl rfl
  · exact keyRound_passes passes rest

/-- An item of `GROUP BY` and the comma behind it are passed. -/
theorem groupRound_passes {answer : Bool} (answers : Yields groupRound before answer after) :
    PassesClauses (if answer then Piece.key * Piece.comma else Piece.key) before after := by
  obtain ⟨key, between, first, rest⟩ := yields_bind.mp answers
  have passes := groupItem_passes first
  split at rest
  · obtain ⟨_, _, noted, rest⟩ := yields_bind.mp rest
    obtain rfl := yields_change.mp noted
    refine keyRound_passes ?_ rest
    exact passes.note rfl rfl rfl rfl
  · exact keyRound_passes passes rest

end Keys

section Clauses

/-- The `WHERE` clause is passed, and with tables its owners are recorded. -/
theorem condition_passes {answer : Unit} (answers : Yields condition before answer after) :
    PassesClauses (Piece.introduced .WHERE) before after := by
  unfold condition at answers
  obtain ⟨tables, start, looked, rest⟩ := yields_bind.mp answers
  obtain ⟨rfl, rfl⟩ := yields_statement.mp looked
  rcases yields_ite.mp rest with ⟨empty, rest⟩ | ⟨_, rest⟩
  · obtain ⟨found, between, first, rest⟩ := yields_bind.mp rest
    have skipped := skipKeyword_passes first (by simp [Piece.clauseWords])
    obtain ⟨cursor, _, rfl⟩ := yields_scan.mp first
    rcases yields_ite.mp rest with ⟨yes, rest⟩ | ⟨no, rest⟩
    · rw [if_pos yes] at skipped
      obtain ⟨_, _, ran, rest⟩ := yields_bind.mp rest
      obtain ⟨_, rfl⟩ := yields_pure.mp rest
      exact (skipped.trans (expression_passes (List.isEmpty_iff.mp empty) ran)).standing
    · rw [if_neg no] at skipped
      obtain ⟨_, rfl⟩ := yields_pure.mp rest
      exact skipped.missing
  · obtain ⟨found, between, first, rest⟩ := yields_bind.mp rest
    have skipped := skipKeyword_passes first (by simp [Piece.clauseWords])
    have noted {between : Analysis} (passes : PassesClauses (Piece.introduced .WHERE) start between)
        (ended : Yields (do
          let parameters ← look (·.parameters)
          change fun statement => { statement with parameters } : AnalysisStep Unit) between answer
            after) :
        PassesClauses (Piece.introduced .WHERE) start after := by
      rw [Step.yields_look_bind] at ended
      obtain rfl := yields_change.mp ended
      exact passes.note rfl rfl rfl rfl
    rcases yields_ite.mp rest with ⟨yes, rest⟩ | ⟨no, rest⟩
    · rw [if_pos yes] at skipped
      obtain ⟨_, _, ran, rest⟩ := yields_bind.mp rest
      exact noted (skipped.trans (expressionWithEdits_passes ran)).standing rest
    · rw [if_neg no] at skipped
      exact noted skipped.missing rest

/-- The `HAVING` clause is passed. -/
theorem having_passes {answer : Unit}
    (answers : Yields (do
      if ← skipKeyword .HAVING then
        let _ ← expressionWithEdits : AnalysisStep Unit) before answer after) :
    PassesClauses (Piece.introduced .HAVING) before after := by
  refine introduced_passes (by simp [Piece.clauseWords]) (fun rest => ?_) answers
  obtain ⟨_, _, ran, rest⟩ := yields_bind.mp rest
  obtain ⟨_, rfl⟩ := yields_pure.mp rest
  exact expressionWithEdits_passes ran

/-- The `GROUP BY` clause is passed with the words that ask for totals, and the `HAVING` clause. -/
theorem groupBy_passes {answer : Unit} (answers : Yields groupBy before answer after) :
    PassesClauses (Piece.grouping * Piece.introduced .HAVING) before after := by
  unfold groupBy at answers
  obtain ⟨found, between, first, rest⟩ := yields_bind.mp answers
  have skipped := skipKeyword_passes first (by simp [Piece.clauseWords])
  rcases yields_ite.mp rest with ⟨yes, rest⟩ | ⟨no, rest⟩
  · rw [if_pos yes] at skipped
    obtain ⟨_, _, second, rest⟩ := yields_bind.mp rest
    obtain ⟨_, _, keys, rest⟩ := yields_bind.mp rest
    obtain ⟨_, _, totals, rest⟩ := yields_bind.mp rest
    have word := expectKeyword_passesClauses second (by simp [Piece.clauseWords])
    have items := repeats_passes groupRound_passes (repeats_of_whileTrue keys)
    have words := repeats_passes (fun answers =>
      skipAnyKeyword_passes answers (by simp [Piece.clauseWords])) (repeats_of_whileTrue totals)
    rw [mul_one] at words
    exact (((skipped.trans word).trans items).trans words).standing.trans (having_passes rest)
  · rw [if_neg no] at skipped
    exact skipped.missing.trans (having_passes rest)

/-- The `ORDER BY` clause is passed. -/
theorem orderBy_passes {dialect : Dialect} (noNulls : dialect.nullsPlacement = false)
    {answer : Unit} (answers : Yields (orderBy dialect) before answer after) :
    PassesClauses Piece.ordering before after := by
  unfold Piece.ordering
  rw [mul_assoc]
  refine introduced_passes (by simp [Piece.clauseWords]) (fun rest => ?_) answers
  obtain ⟨_, _, second, rest⟩ := yields_bind.mp rest
  exact (expectKeyword_passesClauses second (by simp [Piece.clauseWords])).trans
    (repeats_passes (orderRound_passes noNulls) (repeats_of_whileTrue rest))

end Clauses

end AnalysisStep

end SelectRouting
