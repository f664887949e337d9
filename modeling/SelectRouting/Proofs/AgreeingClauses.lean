import SelectRouting.Analysis.Select
import SelectRouting.Proofs.AgreeingReaders
import SelectRouting.Proofs.QueryPassage

/-!
# Clauses that agree

The clauses behind the projection list agree on texts that are alike, whatever relation of statements
their records keep (`ClauseRelation`): both runs fail in the same way, or both record tables, keys and
row limits that are alike (`AnalysisStep.clauses_agree`).
-/

namespace SelectRouting

section Like
variable (like : Likeness)

/-- The tables have names and aliases that are alike. -/
structure Table.Like (table other : Table) : Prop where
  name : like.text table.name other.name
  aliasName : Option.Rel like.text table.aliasName other.aliasName

/-- The operands are the same number, or placeholders whose numbers are alike. -/
inductive LimitValue.Like : LimitValue → LimitValue → Prop where
  | literal (value : Nat) : Like (.literal value) (.literal value)
  | parameter {index other : Nat} : like.count index other → Like (.parameter index) (.parameter other)

/-- The row limits have the same operands. -/
structure Limit.Like (limit other : Limit) : Prop where
  offset : Option.Rel (LimitValue.Like like) limit.offset other.offset
  rowCount : Option.Rel (LimitValue.Like like) limit.rowCount other.rowCount

/-- The keys are columns that are alike, with the same direction and with aliases related by `given`. -/
structure ColumnKey.Like (given : Option String → Option String → Prop) (key other : ColumnKey) :
    Prop where
  owner : Option.Rel like.text key.owner other.owner
  name : like.text key.name other.name
  direction : other.direction = key.direction
  aliasName : given key.aliasName other.aliasName

/-- The keys are columns that are alike, or the same position, with the same direction. -/
inductive OrderKey.Like (given : Option String → Option String → Prop) : OrderKey → OrderKey → Prop where
  | column {key other : ColumnKey} : ColumnKey.Like like given key other →
      Like given (.column key) (.column other)
  | position (index : Nat) (direction : Direction) :
      Like given (.position index direction) (.position index direction)

theorem ColumnKey.Like.qualifiedName {like : Likeness} [like.Lawful]
    {given : Option String → Option String → Prop} {key other : ColumnKey}
    (alike : ColumnKey.Like like.named given key other) :
    like.name key.qualifiedName other.qualifiedName := by
  obtain ⟨owner, name, direction, aliasName⟩ := key
  obtain ⟨owner', name', direction', aliasName'⟩ := other
  cases alike.owner with
  | none => exact alike.name
  | some owners =>
    exact Likeness.Lawful.append (Likeness.Lawful.append owners (Likeness.Lawful.refl ".")) alike.name

end Like

/-- The relation of statements is kept when an edit of a table name is recorded. -/
class EditRelation (like : outParam Likeness) (related : Statement → Statement → Prop) : Prop where
  edits : ∀ {s s' : Statement} {token token' : Token}, related s s' → Token.Like like token token' →
    like.name token.lexeme token'.lexeme →
    related { s with edits := s.edits ++ [.tableName token.start token.lexeme] }
      { s' with edits := s'.edits ++ [.tableName token'.start token'.lexeme] }

/-- The statement with an edit of the owner of a column, if that is one of its tables. -/
def Statement.withOwner (statement : Statement) (owner : Name) : Statement :=
  if (statement.findTable? owner.value).isSome then
    { statement with edits := statement.edits ++ [.tableName owner.start owner.written] }
  else statement

theorem EditRelation.withOwner {like : Likeness} {related : Statement → Statement → Prop}
    [EditRelation like related] {s s' : Statement} {owner owner' : Name} (known : related s s')
    (alike : Name.Like like owner owner')
    (found : (s'.findTable? owner'.value).isSome = (s.findTable? owner.value).isSome) :
    related (s.withOwner owner) (s'.withOwner owner') := by
  unfold Statement.withOwner
  rw [found]
  split
  · cases alike with
    | ofToken tokens named => exact EditRelation.edits known tokens named
  · exact known

/-- The relation of statements is kept by all that the clauses behind the projection list record. The
aliases that related statements give for a column are related by `given`. -/
class ClauseRelation (like : outParam Likeness)
    (given : outParam (Option String → Option String → Prop))
    (related : Statement → Statement → Prop) : Prop extends EditRelation like related where
  isEmpty_tables : ∀ {s s' : Statement}, related s s' → s'.tables.isEmpty = s.tables.isEmpty
  withOwner : ∀ {s s' : Statement} {owner owner' : Name}, related s s' →
    Name.Like like owner owner' → related (s.withOwner owner) (s'.withOwner owner')
  aliasOf : ∀ {s s' : Statement} {name name' : String}, related s s' → like.name name name' →
    given (s.aliasOf? name) (s'.aliasOf? name')
  tables : ∀ {s s' : Statement} {table table' : Table}, related s s' →
    like.name table.name table'.name → Option.Rel like.text table.aliasName table'.aliasName →
    related { s with tables := s.tables ++ [table] } { s' with tables := s'.tables ++ [table'] }
  parameters : ∀ {s s' : Statement} {parameters parameters' : Nat}, related s s' →
    like.count parameters parameters' →
    related { s with parameters } { s' with parameters := parameters' }
  groupKeys : ∀ {s s' : Statement} {key key' : ColumnKey}, related s s' →
    ColumnKey.Like like.named given key key' →
    related { s with groupBy := s.groupBy ++ [key] } { s' with groupBy := s'.groupBy ++ [key'] }
  orderKeys : ∀ {s s' : Statement} {key key' : OrderKey}, related s s' →
    OrderKey.Like like.named given key key' →
    related { s with orderBy := s.orderBy ++ [key] } { s' with orderBy := s'.orderBy ++ [key'] }
  limits : ∀ {s s' : Statement} {limit limit' : Limit}, related s s' → Limit.Like like limit limit' →
    related { s with limit := some limit } { s' with limit := some limit' }

/-- The analyses stand before tokens that are alike, and their statements are related. -/
structure Analysis.Like (like : Likeness) (related : Statement → Statement → Prop)
    (state other : Analysis) : Prop where
  cursor : Cursor.Like like state.cursor other.cursor
  statement : related state.statement other.statement

namespace AnalysisStep
open Scan Step Cursor

instance (like : Likeness) (related : Statement → Statement → Prop) :
    Relates like (Analysis.Like like related) :=
  ⟨Analysis.Like.cursor, fun before alike => ⟨alike, before.statement⟩⟩

variable {like : Likeness} {related : Statement → Statement → Prop}

section Basics

theorem statement_agrees {α β : Type} {same : α → β → Prop} {property : Statement → α}
    {property' : Statement → β} (agree : ∀ s s', related s s' → same (property s) (property' s')) :
    Agrees like (Analysis.Like like related) same (statement property) (statement property') where
  runs before := ⟨.ok (agree _ _ before.statement), before⟩

theorem change_agrees {update update' : Statement → Statement}
    (keep : ∀ s s', related s s' → related (update s) (update' s')) :
    Agrees like (Analysis.Like like related) Eq (change update) (change update') where
  runs before := ⟨.ok rfl, before.cursor, keep _ _ before.statement⟩

theorem warn_agrees (warning warning' : Warning) :
    Agrees like (Analysis.Like like related) Eq (warn warning) (warn warning') where
  runs before := ⟨.ok rfl, before.cursor, before.statement⟩

/-- What is read of an expression is alike, and so are the qualifiers in it. -/
theorem reading_agrees {α β : Type} {same : α → β → Prop} {reader : ExprStep α}
    {reader' : ExprStep β} (agrees : Agrees like (ExprState.Like like) same reader reader') :
    Agrees like (Analysis.Like like related) (fun answer other => same answer.1 other.1 ∧
      List.Forall₂ (Name.Like like) answer.2 other.2) (reading reader) (reading reader') where
  runs {state state'} before := by
    have start : ExprState.Like like { cursor := state.cursor } { cursor := state'.cursor } :=
      ⟨before.cursor, .nil⟩
    have ran := agrees.runs start
    unfold AgreesAt at ran ⊢
    unfold reading
    revert ran
    generalize reader { cursor := state.cursor } = outcome
    generalize reader' { cursor := state'.cursor } = outcome'
    obtain ⟨answer, inner⟩ := outcome
    obtain ⟨answer', inner'⟩ := outcome'
    rintro ⟨answers, after⟩
    refine ⟨?_, after.cursor, before.statement⟩
    cases answers with
    | error alike => exact .error alike
    | ok alike => exact .ok ⟨alike, after.qualifiers⟩

theorem addEdit_agrees [EditRelation like related] {token token' : Token}
    (alike : Token.Like like token token') (named : like.name token.lexeme token'.lexeme) :
    Agrees like (Analysis.Like like related) Eq (addEdit (.tableName token.start token.lexeme))
      (addEdit (.tableName token'.start token'.lexeme)) where
  runs before := ⟨.ok rfl, before.cursor, EditRelation.edits before.statement alike named⟩

end Basics

section Scans

theorem direction_agrees : Agrees like (Cursor.Like like) Eq direction direction :=
  .bind_eq (skipKeyword_agrees _) fun _ => .ite (.pure rfl) <|
    .bind_eq (skipKeyword_agrees _) fun _ => .pure rfl

variable [like.Lawful]

theorem nullsPlacement_agrees : Agrees like (Cursor.Like like) Eq nullsPlacement nullsPlacement := by
  unfold nullsPlacement
  refine .bind_eq (skipWhen_agrees (isShared_atWord? (by decide))) fun _ => .ite ?_ (.pure rfl)
  refine .bind_eq (skipWhen_agrees fun cursor other alike => ?_) fun _ =>
    .ite (.pure rfl) (fail_agrees _)
  exact congrArg₂ (· || ·) (isShared_atWord? (by decide) alike) (isShared_atWord? (by decide) alike)

theorem limitValue_agrees :
    Agrees like (Cursor.Like like) (LimitValue.Like like) limitValue limitValue := by
  unfold limitValue
  refine .bind (look_agrees fun _ _ alike => alike.kind) fun kind kind' kinds => ?_
  cases kinds with
  | string | identifier => exact fail_agrees _
  | same kind =>
    split
    · exact .bind_eq advance_agrees fun _ => .pure (.literal _)
    · exact .bind parameter_agrees fun _ _ counted => .pure (.parameter counted)
    · exact fail_agrees _

theorem limitClause_agrees : Agrees like (Cursor.Like like) (Option.Rel (Limit.Like like))
    limitClause limitClause := by
  unfold limitClause
  refine .bind_eq (skipKeyword_agrees _) fun _ => .ite ?_ (.pure .none)
  refine .bind limitValue_agrees fun first first' same => ?_
  refine .bind_eq (skipSymbol_agrees _) fun _ => .ite ?_ ?_
  · exact .bind limitValue_agrees fun second second' alike =>
      .pure (.some ⟨.some same, .some alike⟩)
  · refine .bind_eq (skipKeyword_agrees _) fun _ => .ite ?_ (.pure (.some ⟨.none, .some same⟩))
    exact .bind limitValue_agrees fun second second' alike =>
      .pure (.some ⟨.some alike, .some same⟩)

theorem lockingRead_agrees : Agrees like (Cursor.Like like) Eq lockingRead lockingRead := by
  have word {word : String} (loose : word ∈ looseWords) :
      Agrees like (Cursor.Like like) Eq (expectWord word) (expectWord word) :=
    .bind_eq (skipWhen_agrees (isShared_atWord? loose)) fun _ => .ite (.pure rfl) (fail_agrees _)
  unfold lockingRead
  refine .bind_eq (skipKeyword_agrees _) fun _ => .ite (word (by decide)) ?_
  refine .bind_eq (skipKeyword_agrees _) fun _ => .ite ?_ (.pure rfl)
  exact .bind_eq (word (by decide)) fun _ => .bind_eq (word (by decide)) fun _ => word (by decide)

theorem limitRound_agrees {limit limit' : Option Limit} (alike : Option.Rel (Limit.Like like) limit limit') :
    Agrees like (Cursor.Like like)
      (Round.Like (Option.Rel (Limit.Like like)) (Option.Rel (Limit.Like like))) (limitRound limit)
      (limitRound limit') := by
  have parts : Limit.Like like (limit.getD {}) (limit'.getD {}) := by
    cases alike with
    | none => exact ⟨.none, .none⟩
    | some same => exact same
  unfold limitRound
  refine .bind_eq (skipKeyword_agrees _) fun _ => .ite ?_ ?_
  · refine .bind_eq (skipKeyword_agrees _) fun _ =>
      .ite (.pure (.next (.some ⟨parts.offset, .none⟩))) ?_
    have counted : Agrees like (Cursor.Like like) (Option.Rel (LimitValue.Like like))
        (some <$> limitValue) (some <$> limitValue) := by
      rw [map_eq_pure_bind]
      exact .bind limitValue_agrees fun _ _ same => .pure (.some same)
    exact .bind counted fun _ _ same => .pure (.next (.some ⟨parts.offset, same⟩))
  · refine .bind_eq (skipKeyword_agrees _) fun _ => .ite ?_ (.pure (.done alike))
    refine .bind limitValue_agrees fun _ _ same => ?_
    exact .bind_eq (skipAnyKeyword_agrees _) fun _ =>
      .pure (.next (.some ⟨.some same, parts.rowCount⟩))

omit [like.Lawful] in
theorem bodyEnd_agrees (dialect : Dialect) :
    Agrees like (Cursor.Like like) Eq (bodyEnd dialect) (bodyEnd dialect) := by
  unfold bodyEnd
  split
  · unfold rejectSetOperation
    refine .bind (look_agrees fun _ _ alike => alike.current) fun token other alike => ?_
    have kinds := alike.kind
    generalize token.kind = kind at kinds ⊢
    generalize other.kind = kind' at kinds ⊢
    cases kinds with
    | string | identifier => exact .pure rfl
    | same kind =>
      split
      · exact .ite (.throw (.unsupported _ alike)) (.pure rfl)
      · exact .pure rfl
  · exact .whileTrue (skipWhen_agrees fun _ _ alike => congrArg (!·) (isShared_atEnd alike))

end Scans

variable [like.Lawful] {given : Option String → Option String → Prop}
  [relation : ClauseRelation like given related]
include relation

section Edits

omit [like.Lawful] relation in
theorem addOwnerEdit_run (owner : Name) (state : Analysis) : addOwnerEdit owner state =
    (.ok (), { state with statement := state.statement.withOwner owner }) := by
  change (if (state.statement.findTable? owner.value).isSome then
    addEdit (.tableName owner.start owner.written) else pure () : AnalysisStep Unit) state = _
  unfold Statement.withOwner
  by_cases found : (state.statement.findTable? owner.value).isSome = true
  · rw [if_pos found, if_pos found]
    rfl
  · rw [if_neg found, if_neg found]
    rfl

omit [like.Lawful] in
theorem addOwnerEdit_agrees {owner owner' : Name} (alike : Name.Like like owner owner') :
    Agrees like (Analysis.Like like related) Eq (addOwnerEdit owner) (addOwnerEdit owner') := by
  refine ⟨fun {state state'} before => ?_⟩
  unfold AgreesAt
  rw [addOwnerEdit_run, addOwnerEdit_run]
  exact ⟨.ok rfl, before.cursor, ClauseRelation.withOwner before.statement alike⟩

omit [like.Lawful] in
theorem addOwnerEdits_agrees {owners owners' : List Name}
    (alike : List.Forall₂ (Name.Like like) owners owners') :
    Agrees like (Analysis.Like like related) Eq (owners.forM addOwnerEdit)
      (owners'.forM addOwnerEdit) := by
  induction alike with
  | nil => exact .pure rfl
  | cons first _ ih => exact .bind_eq (addOwnerEdit_agrees first) fun _ => ih

theorem expressionWithEdits_agrees : Agrees like (Analysis.Like like related) (Expr.Like like)
    expressionWithEdits expressionWithEdits := by
  unfold expressionWithEdits
  refine .bind (reading_agrees (ExprStep.expressionOf_agrees 0)) ?_
  rintro ⟨expr, qualifiers⟩ ⟨expr', qualifiers'⟩ ⟨same, owners⟩
  exact .bind_eq (addOwnerEdits_agrees owners) fun _ => .pure same

end Edits

section Sources

theorem source_agrees : Agrees like (Analysis.Like like related) Eq source source := by
  unfold source
  refine .bind (.scan (look_agrees fun _ _ alike => alike.current)) fun token other alike => ?_
  have routed (named : like.name token.lexeme other.lexeme) : Agrees like
      (Analysis.Like like related) Eq
      (do
        advance
        if ← skipSymbol .dot then
          let table ← look (·.lexeme)
          advance
          let _ ← aliasName
          warn (.schemaQualified token.lexeme table)
        else
          addEdit (.tableName token.start token.lexeme)
          let aliasName ← aliasName
          change fun statement =>
            { statement with
              tables := statement.tables ++
                [{ name := Text.stripQuotes token.lexeme, aliasName }] } : AnalysisStep Unit)
      (do
        advance
        if ← skipSymbol .dot then
          let table ← look (·.lexeme)
          advance
          let _ ← aliasName
          warn (.schemaQualified other.lexeme table)
        else
          addEdit (.tableName other.start other.lexeme)
          let aliasName ← aliasName
          change fun statement =>
            { statement with
              tables := statement.tables ++
                [{ name := Text.stripQuotes other.lexeme, aliasName }] }) := by
    refine .bind_eq (.scan advance_agrees) fun _ => ?_
    refine .bind_eq (.scan (skipSymbol_agrees _)) fun _ => .ite ?_ ?_
    · refine .bind (.scan (look_agrees fun _ _ alike => alike.lexeme)) fun _ _ _ => ?_
      exact .bind_eq (.scan advance_agrees) fun _ => .bind (.scan aliasName_agrees) fun _ _ _ =>
        warn_agrees _ _
    · refine .bind_eq (addEdit_agrees alike named) fun _ => ?_
      refine .bind (.scan aliasName_agrees) fun _ _ aliased => change_agrees fun s s' known => ?_
      exact ClauseRelation.tables known (Likeness.Lawful.stripQuotes_name named) aliased
  have kinds := alike.kind
  have word := Likeness.Lawful.name_of_word alike
  have subquery := ParseError.Alike.subquery alike
  generalize token.kind = kind at kinds word ⊢
  generalize other.kind = kind' at kinds ⊢
  cases kinds with
  | string => exact .fail
  | identifier => exact routed (word rfl)
  | same kind =>
    split
    · exact routed (word rfl)
    · exact .throw subquery
    · exact .fail

theorem joinSide_agrees : Agrees like (Analysis.Like like related) Eq joinSide joinSide := by
  unfold joinSide
  refine .bind (reading_agrees (ExprStep.expressionOf_agrees _)) ?_
  rintro ⟨side, _⟩ ⟨side', _⟩ ⟨same, _⟩
  dsimp only at same
  cases same with
  | property owners => exact addOwnerEdit_agrees owners
  | number | identifier | other => exact .pure rfl

theorem joinRound_agrees : Agrees like (Analysis.Like like related) Eq joinRound joinRound := by
  unfold joinRound
  have equation : Agrees like (Analysis.Like like related) Eq joinEquation joinEquation :=
    .bind_eq joinSide_agrees fun _ => .bind_eq (.scan (expectSymbol_agrees _)) fun _ =>
      .bind_eq joinSide_agrees fun _ => .scan (skipKeyword_agrees _)
  refine .bind_eq (.scan join_agrees) fun _ => .ite ?_ (.pure rfl)
  refine .bind_eq source_agrees fun _ => .bind_eq (.scan (skipKeyword_agrees _)) fun _ => .ite ?_ ?_
  · exact .bind_eq (.whileTrue equation) fun _ => .pure rfl
  · exact .bind_eq (.scan (skipKeyword_agrees _)) fun _ =>
      .ite (.bind (.scan group_agrees) fun _ _ _ => .pure rfl) (.pure rfl)

theorem fromClause_agrees : Agrees like (Analysis.Like like related) Eq fromClause fromClause :=
  .bind_eq (.scan (skipKeyword_agrees _)) fun _ =>
    .ite (.bind_eq source_agrees fun _ => .whileTrue joinRound_agrees) (.pure rfl)

end Sources

theorem condition_agrees : Agrees like (Analysis.Like like related) Eq condition condition := by
  unfold condition
  have noted : Agrees like (Analysis.Like like related) Eq (do
      let parameters ← look (·.parameters)
      change fun statement => { statement with parameters } : AnalysisStep Unit) (do
      let parameters ← look (·.parameters)
      change fun statement => { statement with parameters }) :=
    .bind (.scan (look_agrees fun _ _ alike => alike.parameters)) fun _ _ counted =>
      change_agrees fun _ _ known => ClauseRelation.parameters known counted
  have tables : Agrees like (Analysis.Like like related)
      (fun tables tables' : List Table => tables'.isEmpty = tables.isEmpty)
      (statement (·.tables)) (statement (·.tables)) :=
    statement_agrees fun _ _ known => ClauseRelation.isEmpty_tables known
  refine .bind tables fun tables tables' same => ?_
  rw [same]
  refine .ite ?_ ?_
  · refine .bind_eq (.scan (skipKeyword_agrees _)) fun _ => .ite ?_ (.pure rfl)
    exact .bind (reading_agrees (ExprStep.expressionOf_agrees 0)) fun _ _ _ => .pure rfl
  · refine .bind_eq (.scan (skipKeyword_agrees _)) fun _ => .ite ?_ noted
    exact .bind expressionWithEdits_agrees fun _ _ _ => noted

section Keys

theorem columnKey_agrees {owner owner' : Option Name} {name name' : Name} (direction : Direction)
    (owners : Option.Rel (Name.Like like) owner owner') (names : Name.Like like name name') :
    Agrees like (Analysis.Like like related) (ColumnKey.Like like.named given)
      (columnKey owner name direction) (columnKey owner' name' direction) := by
  unfold columnKey
  dsimp only
  have ownerValues : Option.Rel like.name (owner.map Name.value) (owner'.map Name.value) := by
    cases owners with
    | none => exact .none
    | some alike => exact .some alike.value
  have bare : ColumnKey.Like like.named (fun _ _ => True)
      ⟨owner.map Name.value, name.value, direction, none⟩
      ⟨owner'.map Name.value, name'.value, direction, none⟩ :=
    ⟨ownerValues, names.value, rfl, trivial⟩
  refine .bind (statement_agrees fun _ _ known => ClauseRelation.aliasOf known bare.qualifiedName)
    fun _ _ found => .pure ?_
  exact ⟨ownerValues, names.value, rfl, found⟩

theorem keyItem_agrees : Agrees like (Analysis.Like like related)
    (fun answer other => Expr.Like like answer.1 other.1 ∧ answer.2.1 = other.2.1)
      keyItem keyItem := by
  unfold keyItem
  have quoted (start start' : Nat) : Agrees like (Analysis.Like like related) (fun _ _ => True)
      (liftM (look fun cursor => cursor.source ⟨start, cursor.previous.stop⟩) : AnalysisStep String)
      (liftM (look fun cursor => cursor.source ⟨start', cursor.previous.stop⟩)) :=
    .scan (look_agrees fun _ _ _ => trivial)
  refine .bind (.scan (look_agrees fun _ _ alike => alike.start)) fun start start' _ => ?_
  refine .bind expressionWithEdits_agrees fun expr expr' same => ?_
  refine .bind (quoted start start') fun _ _ _ => ?_
  exact .bind_eq (.scan direction_agrees) fun _ => .pure ⟨same, rfl⟩

theorem groupItem_agrees : Agrees like (Analysis.Like like related)
    (Option.Rel (ColumnKey.Like like.named given)) groupItem groupItem := by
  unfold groupItem
  refine .bind keyItem_agrees ?_
  rintro ⟨expr, direction, text⟩ ⟨expr', _, text'⟩ ⟨same, rfl⟩
  dsimp only at same ⊢
  cases same with
  | identifier names =>
    exact .bind (columnKey_agrees _ .none names) fun _ _ same => .pure (.some same)
  | property owners names =>
    exact .bind (columnKey_agrees _ (.some owners) names) fun _ _ same => .pure (.some same)
  | number | other => exact .bind_eq (warn_agrees _ _) fun _ => .pure .none

theorem groupRound_agrees : Agrees like (Analysis.Like like related) Eq groupRound groupRound := by
  unfold groupRound
  have comma : Agrees like (Analysis.Like like related) Eq
      (liftM (skipSymbol .comma) : AnalysisStep Bool) (liftM (skipSymbol .comma)) :=
    .scan (skipSymbol_agrees _)
  refine .bind groupItem_agrees fun found found' same => ?_
  cases same with
  | none => exact comma
  | some same =>
    exact .bind_eq (change_agrees fun s s' known => ClauseRelation.groupKeys known same) fun _ => comma

theorem groupBy_agrees : Agrees like (Analysis.Like like related) Eq groupBy groupBy := by
  unfold groupBy
  have having : Agrees like (Analysis.Like like related) Eq (do
      if ← skipKeyword .HAVING then
        let _ ← expressionWithEdits : AnalysisStep Unit) (do
      if ← skipKeyword .HAVING then
        let _ ← expressionWithEdits) :=
    .bind_eq (.scan (skipKeyword_agrees _)) fun _ =>
      .ite (.bind expressionWithEdits_agrees fun _ _ _ => .pure rfl) (.pure rfl)
  refine .bind_eq (.scan (skipKeyword_agrees _)) fun _ => .ite ?_ having
  refine .bind_eq (.scan (expectKeyword_agrees _)) fun _ => ?_
  refine .bind_eq (.whileTrue groupRound_agrees) fun _ => ?_
  exact .bind_eq (.whileTrue (.scan (skipAnyKeyword_agrees _))) fun _ => having

theorem orderItem_agrees : Agrees like (Analysis.Like like related)
    (Option.Rel (OrderKey.Like like.named given)) orderItem orderItem := by
  unfold orderItem
  refine .bind keyItem_agrees ?_
  rintro ⟨expr, direction, text⟩ ⟨expr', _, text'⟩ ⟨same, rfl⟩
  dsimp only at same ⊢
  have dropped : Agrees like (Analysis.Like like related) (Option.Rel (OrderKey.Like like.named given))
      (do warn (.orderItemDropped text); return none : AnalysisStep (Option OrderKey))
      (do warn (.orderItemDropped text'); return none : AnalysisStep (Option OrderKey)) :=
    .bind_eq (warn_agrees _ _) fun _ => .pure .none
  cases same with
  | number value =>
    cases value with
    | zero => exact dropped
    | succ index => exact .pure (.some (.position _ _))
  | identifier names =>
    exact .bind (columnKey_agrees _ .none names) fun _ _ same => .pure (.some (.column same))
  | property owners names =>
    exact .bind (columnKey_agrees _ (.some owners) names) fun _ _ same =>
      .pure (.some (.column same))
  | other => exact dropped

theorem orderBy_agrees (dialect : Dialect) :
    Agrees like (Analysis.Like like related) Eq (orderBy dialect) (orderBy dialect) := by
  unfold orderBy orderRound dialectOrderItem
  have comma : Agrees like (Analysis.Like like related) Eq
      (liftM (skipSymbol .comma) : AnalysisStep Bool) (liftM (skipSymbol .comma)) :=
    .scan (skipSymbol_agrees _)
  refine .bind_eq (.scan (skipKeyword_agrees _)) fun _ => .ite ?_ (.pure rfl)
  refine .bind_eq (.scan (expectKeyword_agrees _)) fun _ => .whileTrue ?_
  refine .bind (.bind orderItem_agrees fun _ _ same =>
    .ite (.bind_eq (.scan nullsPlacement_agrees) fun _ => .pure same) (.pure same))
    fun found found' same => ?_
  cases same with
  | none => exact comma
  | some same =>
    exact .bind_eq (change_agrees fun s s' known => ClauseRelation.orderKeys known same) fun _ => comma

end Keys

omit [like.Lawful] in
theorem setLimit_agrees {limit limit' : Option Limit}
    (alike : Option.Rel (Limit.Like like) limit limit') :
    Agrees like (Analysis.Like like related) Eq (setLimit limit) (setLimit limit') := by
  unfold setLimit
  cases alike with
  | none => exact .pure rfl
  | some same => exact change_agrees fun _ _ known => ClauseRelation.limits known same

theorem trailingClauses_agrees (dialect : Dialect) : Agrees like (Analysis.Like like related) Eq
    (trailingClauses dialect) (trailingClauses dialect) := by
  unfold trailingClauses
  split
  · exact .pure rfl
  · exact .bind (.scan limitClause_agrees) fun _ _ alike =>
      .bind_eq (setLimit_agrees alike) fun _ => .scan lockingRead_agrees
  · exact .bind (.scan (.rounding (fun _ _ alike => limitRound_agrees alike) .none))
      fun _ _ alike => setLimit_agrees alike

omit relation [like.Lawful] in
/-- The end of a query agrees when the derived columns keep the relation. -/
theorem ending_agrees
    (derived : ∀ s s', related s s' → related s.withDerivedColumns s'.withDerivedColumns) :
    Agrees like (Analysis.Like like related) Eq
      (do
        let _ ← skipSymbol .semicolon
        unless ← look (·.atEnd) do fail .endOfStatement
        change Statement.withDerivedColumns : AnalysisStep Unit)
      (do
        let _ ← skipSymbol .semicolon
        unless ← look (·.atEnd) do fail .endOfStatement
        change Statement.withDerivedColumns) :=
  .bind_eq (.scan (skipSymbol_agrees _)) fun _ =>
    .bind_eq (.scan (seen isShared_atEnd)) fun _ => .ite (change_agrees derived) .fail_bind

end AnalysisStep

end SelectRouting
