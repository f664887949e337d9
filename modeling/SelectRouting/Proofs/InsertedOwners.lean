import Mathlib.Data.List.Basic
import SelectRouting.Proofs.ShardTokens

/-!
# Owners in the added columns

The columns that are added name their owners as the query does, whatever the routes are, in the text of
the insertion and in the query for a shard (`Statement.owners_inserted`). So the query for a shard asks
a logical table for a column exactly when the query that it was made from qualifies an unprojected key,
or a column inside an average, with a table that is routed.
-/

namespace SelectRouting

namespace Token
variable {tokens others : List Token}

/-- Which names stand before points does not depend on the places. -/
theorem owners_of_content (same : tokens.map content = others.map content) :
    (owners tokens).map content = (owners others).map content := by
  induction tokens generalizing others with
  | nil =>
    obtain rfl := List.map_eq_nil_iff.mp same.symm
    rfl
  | cons token tokens ih =>
    obtain ⟨other, rest, rfl, is, more⟩ := List.map_eq_cons_iff.mp same.symm
    have kind := kind_eq_of_content is
    have front : frontKind rest = frontKind tokens := by
      cases tokens with
      | nil =>
        obtain rfl := List.map_eq_nil_iff.mp more
        rfl
      | cons next tokens =>
        obtain ⟨_, _, rfl, first, _⟩ := List.map_eq_cons_iff.mp more
        exact kind_eq_of_content first
    have here : (ownerBefore tokens token).map content = (ownerBefore rest other).map content := by
      rw [ownerBefore, ownerBefore, kind, front]
      split
      · rw [List.map_singleton, List.map_singleton, is]
      · rfl
    rw [owners, owners, List.map_append, List.map_append, here, ih more.symm]

end Token

namespace AddedColumn
open Token

/-- The owners that an added column names: those in the argument of an average, or that of a key. -/
def owners : AddedColumn → List Token
  | part column => Token.owners (list column.argument)
  | key column _ => (column.owner.toList.map ofWord).filter fun token => token.kind.isIdentifier

/-- A word is no point. -/
theorem frontKind_ofWord (word : String) (rest : List Token) :
    frontKind (ofWord word :: rest) ≠ .symbol .dot :=
  kind_ofWord_ne word .dot

theorem owners_alias (aliasName : String) : Token.owners [ofWord "AS", ofWord aliasName] = [] := by
  rw [Token.owners, ownerBefore_of_front (frontKind_ofWord _ _), Token.owners,
    ownerBefore_of_front (by simp)]
  rfl

/-- The owners among the tokens of an added column. -/
theorem owners_tokens (column : AddedColumn) : Token.owners column.tokens = column.owners := by
  have named (first : List Token) (aliasName : String) :
      Token.owners (first ++ [ofWord "AS", ofWord aliasName]) = Token.owners first := by
    rw [owners_append (frontKind_ofWord _ _), owners_alias, List.append_nil]
  cases column with
  | part column =>
    have word : (ofWord column.function.spelling).kind.isIdentifier = false := by
      cases column.function <;> decide
    rw [tokens, named, Token.owners, ownerBefore, word]
    rfl
  | key column aliasName =>
    have last : Token.owners [ofWord column.name] = [] := by
      rw [Token.owners, ownerBefore_of_front (by simp)]
      rfl
    rw [tokens, named, owners, Column.tokens]
    cases column.owner with
    | none => exact last
    | some owner =>
      have point : Token.owners [⟨.symbol .dot, 0, "."⟩, ofWord column.name] = [] := by
        rw [Token.owners, last]
        rfl
      rw [Token.owners, point, List.append_nil, ownerBefore]
      simp [List.filter_cons]

theorem owners_insertedTokens (columns : List AddedColumn) :
    Token.owners (insertedTokens columns) = columns.flatMap owners := by
  rw [insertedTokens, owners_flatMap fun column _ => by simp [comma]]
  refine congrArg (columns.flatMap ·) (funext fun column => ?_)
  rw [← owners_tokens, Token.owners]
  rfl

end AddedColumn

namespace Statement

/-- The owners that the added columns name. -/
def addedOwners (statement : Statement) : List Token :=
  statement.addedColumns.flatMap AddedColumn.owners

/-- The token names a table of the statement that the routes put another table in place of. -/
def IsRerouted (statement : Statement) (routes : Routes) (token : Token) : Prop :=
  token.namesTable statement.tables = true ∧ ∃ physical,
    routes.get? (Text.stripQuotes token.lexeme) = some physical ∧
      physical ≠ Text.stripQuotes token.lexeme

/-- Whether none of the owners is rerouted depends on their contents alone. -/
theorem forall_not_isRerouted_congr {statement : Statement} {routes : Routes}
    {owners others : List Token} (same : owners.map Token.content = others.map Token.content) :
    (∀ owner ∈ owners, ¬ statement.IsRerouted routes owner) ↔
      ∀ owner ∈ others, ¬ statement.IsRerouted routes owner := by
  have free (tokens : List Token) : (∀ owner ∈ tokens, ¬ statement.IsRerouted routes owner) ↔
      ∀ content ∈ tokens.map Token.content,
        ¬ statement.IsRerouted routes ⟨content.1, 0, content.2⟩ := by
    rw [List.forall_mem_map]
    rfl
  rw [free, free, same]

/-- Tokens that read as the added columns name their owners. -/
theorem owners_of_inserted {statement : Statement} {inserted : List Token}
    (reads : inserted.map Token.content =
      (AddedColumn.insertedTokens statement.addedColumns).map Token.content) :
    (Token.owners inserted).map Token.content = statement.addedOwners.map Token.content := by
  rw [Token.owners_of_content reads, AddedColumn.owners_insertedTokens]
  rfl

/-- The added columns keep the owners that the query names, in the text of the insertion as in the
query for a shard. So none of their owners is a logical table that is routed elsewhere exactly when
none of the query's own, in an unprojected key or inside an average, is one. -/
theorem owners_inserted {dialect : Dialect} (shipped : dialect ∈ Dialect.shipped)
    {text : String} {statement : Statement} (accepted : ofText dialect text = .ok statement)
    (unquoted : ∀ column aliasName, .key column aliasName ∈ statement.addedKeys → column.IsPlain) :
    (∀ offset columns, .projection offset columns ∈ statement.edits →
      (Token.owners (Token.list (Edit.insertion columns))).map Token.content =
        statement.addedOwners.map Token.content ∧
      ∀ routes : Routes,
        (∀ owner ∈ Token.owners (Token.list (Edit.insertion columns)),
          ¬ statement.IsRerouted routes owner) ↔
        ∀ owner ∈ statement.addedOwners, ¬ statement.IsRerouted routes owner) ∧
    ∀ routes : Routes, statement.Respells routes text → ∃ front behind front' inserted behind',
      statement.ShardReads routes.get? text (routes.shardQuery statement.edits text) front behind
        front' inserted behind' ∧
      (Token.owners inserted).map Token.content = statement.addedOwners.map Token.content ∧
      ((∀ owner ∈ Token.owners inserted, ¬ statement.IsRerouted routes owner) ↔
        ∀ owner ∈ statement.addedOwners, ¬ statement.IsRerouted routes owner) := by
  have plain := Dialect.isPlain_of_shipped shipped
  obtain ⟨query, describes⟩ := exists_query plain accepted
  obtain ⟨opened, _⟩ := ofText_ok accepted
  have valid := Cursor.valid_of_ofText opened
  refine ⟨fun offset columns inserts => ?_, fun routes respells => ?_⟩
  · obtain ⟨-, -, rfl⟩ := describes.projection_mem_edits.mp inserts
    have owners := owners_of_inserted
      (AddedColumn.content_list_insertion (describes.isReadable plain valid unquoted))
    exact ⟨owners, fun routes => forall_not_isRerouted_congr owners⟩
  · obtain ⟨front', inserted, behind', reads⟩ := describes.shardReads plain valid respells
    have owners := owners_of_inserted reads.inserted
    exact ⟨_, _, front', inserted, behind', reads, owners, forall_not_isRerouted_congr owners⟩

/-- An alias of a table stays right when the table is replaced. -/
theorem owners_inserted_of_alias :
    let text := "SELECT x.b FROM t x ORDER BY x.a"
    let routes := Routes.ofList [("t", "t_0")]
    let columns := ["x.a AS ORDER_BY_DERIVED_0"]
    Dialect.generic ∈ Dialect.shipped ∧ ∃ statement, ofText .generic text = .ok statement ∧
      statement.Respells routes text ∧
      (∀ column aliasName, .key column aliasName ∈ statement.addedKeys → column.IsPlain) ∧
      .projection 11 columns ∈ statement.edits ∧
      routes.shardQuery statement.edits text =
        "SELECT x.b , x.a AS ORDER_BY_DERIVED_0 FROM t_0 x ORDER BY x.a" ∧
      statement.addedOwners = [Token.ofWord "x"] ∧
      ¬ statement.IsRerouted routes (Token.ofWord "x") ∧
      (Token.owners (Token.list (Edit.insertion columns))).map Token.content =
        statement.addedOwners.map Token.content ∧
      ∃ front behind front' inserted behind',
        statement.ShardReads routes.get? text (routes.shardQuery statement.edits text) front behind
          front' inserted behind' ∧
        (Token.owners inserted).map Token.content = statement.addedOwners.map Token.content ∧
        ((∀ owner ∈ Token.owners inserted, ¬ statement.IsRerouted routes owner) ↔
          ∀ owner ∈ statement.addedOwners, ¬ statement.IsRerouted routes owner) := by
  have shipped : Dialect.generic ∈ Dialect.shipped := by simp [Dialect.shipped]
  obtain ⟨statement, accepted, respells, inserts, made, owners, free⟩ : ∃ statement,
      ofText .generic "SELECT x.b FROM t x ORDER BY x.a" = .ok statement ∧
        statement.Respells (Routes.ofList [("t", "t_0")]) "SELECT x.b FROM t x ORDER BY x.a" ∧
        .projection 11 ["x.a AS ORDER_BY_DERIVED_0"] ∈ statement.edits ∧
        (Routes.ofList [("t", "t_0")]).shardQuery statement.edits "SELECT x.b FROM t x ORDER BY x.a" =
          "SELECT x.b , x.a AS ORDER_BY_DERIVED_0 FROM t_0 x ORDER BY x.a" ∧
        statement.addedOwners = [Token.ofWord "x"] ∧
        (Token.ofWord "x").namesTable statement.tables = false := by
    refine ⟨{
        items := [.plain "x.b" none]
        tables := [⟨"t", some "x"⟩]
        orderBy := [.column ⟨some "x", "a", .ascending, some "ORDER_BY_DERIVED_0"⟩]
        projectionEnd := 11
        edits := [.tableName 7 "x", .tableName 16 "t",
          .projection 11 ["x.a AS ORDER_BY_DERIVED_0"]] }, by decide +kernel,
      ⟨?_, by decide, ?_, by decide⟩, by decide, by decide, by decide, by decide⟩
    · intro logical name found
      obtain rfl : name = "t_0" := by simpa using Routes.mem_of_get? found
      decide +kernel
    · intro column aliasName added
      change AddedColumn.key column aliasName ∈
        [AddedColumn.key ⟨some "x", "a"⟩ "ORDER_BY_DERIVED_0"] at added
      obtain ⟨rfl, _⟩ := AddedColumn.key.inj (List.mem_singleton.mp added)
      exact ⟨by simpa using (by decide : Text.IsWord "x"), by decide +kernel⟩
  have kept := owners_inserted shipped accepted respells.unquoted
  exact ⟨shipped, statement, accepted, respells, respells.unquoted, inserts, made, owners,
    fun rerouted => Bool.eq_false_iff.mp free rerouted.1, (kept.1 _ _ inserts).1,
    kept.2 _ respells⟩

/-- The owner of a key is kept in the column that is added for it, and replaced everywhere else. -/
theorem owner_of_key_unrouted :
    let text := "SELECT t.b FROM t ORDER BY t.a"
    let routes := Routes.ofList [("t", "t_0")]
    let columns := ["t.a AS ORDER_BY_DERIVED_0"]
    let owner : Token := ⟨.identifier "t", 2, "t"⟩
    ∃ statement, ofText .generic text = .ok statement ∧ .projection 11 columns ∈ statement.edits ∧
      owner ∈ Token.owners (Token.list (Edit.insertion columns)) ∧
      statement.IsRerouted routes owner ∧
      routes.shardQuery statement.edits text =
        "SELECT t_0.b , t.a AS ORDER_BY_DERIVED_0 FROM t_0 ORDER BY t_0.a" := by
  have accepted : ofText .generic "SELECT t.b FROM t ORDER BY t.a" = .ok
      { items := [.plain "t.b" none]
        tables := [⟨"t", none⟩]
        orderBy := [.column ⟨some "t", "a", .ascending, some "ORDER_BY_DERIVED_0"⟩]
        projectionEnd := 11
        edits := [.tableName 7 "t", .tableName 16 "t", .tableName 27 "t",
          .projection 11 ["t.a AS ORDER_BY_DERIVED_0"]] } := by
    decide +kernel
  exact ⟨_, accepted, by simp, by decide, ⟨by decide, "t_0", by decide,
    by decide⟩, by decide⟩

end Statement

end SelectRouting
