import Mathlib.Data.List.Basic
import SelectRouting.Proofs.ShardTokens

/-!
# Placeholders of the query for a shard

The query for a shard has the placeholders of the query, at the same places among its tokens, and
those of the arguments of averages again for each part of an average that is added
(`Statement.placeholders_shardQuery`).
-/

namespace SelectRouting

namespace Token
variable {tokens others : List Token}

theorem placeholders_of_content (same : tokens.map content = others.map content) :
    placeholders tokens = placeholders others := by
  have kinds (tokens : List Token) : placeholders tokens =
      (tokens.map content).countP fun content => content.1 == .symbol .question := by
    rw [List.countP_map]
    rfl
  rw [kinds, kinds, same]

/-- A name that becomes a table is no placeholder, before and after. -/
theorem placeholders_of_becomes {physical : String → Option String} {edited : Token → Bool}
    (become : List.Forall₂ (Becomes physical edited) tokens others)
    (noSymbols : ∀ token ∈ tokens, edited token = true → token.kind.isSymbol = false) :
    placeholders others = placeholders tokens := by
  induction become with
  | nil => rfl
  | @cons token other tokens others becomes _ ih =>
    have later := ih fun next member => noSymbols next (List.mem_cons_of_mem _ member)
    have here : (other.kind == .symbol .question) = (token.kind == .symbol .question) := by
      cases becomes with
      | kept _ kind _ => rw [kind]
      | renamed isEdited _ kind _ =>
        have noSymbol := noSymbols token List.mem_cons_self isEdited
        cases is : token.kind <;> simp_all [TokenKind.isSymbol]
    unfold placeholders at later ⊢
    rw [List.countP_cons, List.countP_cons, later, here]

end Token

namespace AddedColumn
open Token

/-- The placeholders of a column that is added: those of its argument, if it is a part of an
average. -/
def placeholders : AddedColumn → Nat
  | part column => Token.placeholders (list column.argument)
  | key _ _ => 0

/-- Of the tokens of an added column, only those of its argument can be placeholders. -/
theorem placeholders_tokens (column : AddedColumn) :
    Token.placeholders column.tokens = column.placeholders := by
  cases column with
  | part column => simp [tokens, placeholders, Token.placeholders, kind_ofWord_ne]
  | key column aliasName =>
    cases owner : column.owner <;>
      simp [tokens, placeholders, Column.tokens, owner, Token.placeholders, kind_ofWord_ne]

example : Token.placeholders (part ⟨.sum, "(a + ? + '?')", "AVG_DERIVED_SUM_0"⟩).tokens = 1 := by
  decide +kernel

theorem placeholders_insertedTokens (columns : List AddedColumn) :
    Token.placeholders (insertedTokens columns) = (columns.map placeholders).sum := by
  induction columns with
  | nil => rfl
  | cons column columns ih =>
    have first : Token.placeholders (comma :: column.tokens) = column.placeholders := by
      rw [← placeholders_tokens]
      rfl
    rw [insertedTokens, List.flatMap_cons, placeholders_append, first, List.map_cons, List.sum_cons]
    exact congrArg _ ih

end AddedColumn

namespace Statement

/-- The placeholders in the arguments of the parts of averages that are added. -/
def copiedPlaceholders (statement : Statement) : Nat :=
  (statement.addedParts.map fun part => Token.placeholders (Token.list part.argument)).sum

theorem sum_placeholders (statement : Statement) :
    (statement.addedColumns.map AddedColumn.placeholders).sum = statement.copiedPlaceholders := by
  have keys (stem : String) (number : Nat) (columns : List Column) :
      ((AddedColumn.numbered stem number columns).map AddedColumn.placeholders).sum = 0 := by
    induction columns generalizing number with
    | nil => rfl
    | cons column columns ih =>
      rw [AddedColumn.numbered_cons, List.map_cons, List.sum_cons, ih]
      rfl
  have added : (statement.addedKeys.map AddedColumn.placeholders).sum = 0 := by
    unfold addedKeys
    split
    · rfl
    · rw [List.map_append, List.sum_append, keys, keys]
  rw [addedColumns, List.map_append, List.sum_append, added, Nat.add_zero, List.map_map]
  rfl

/-- The query for a shard has the tokens of the query, with tables in place of names, and so its
placeholders in the same order; the tokens of the added columns stand between them, and the
placeholders among those are the ones in the arguments of the parts of averages. -/
theorem placeholders_shardQuery {dialect : Dialect} (shipped : dialect ∈ Dialect.shipped)
    {text : String} {statement : Statement} (accepted : ofText dialect text = .ok statement)
    {routes : Routes} (respells : statement.Respells routes text) :
    ∃ front behind front' inserted behind',
      statement.ShardReads routes.get? text (routes.shardQuery statement.edits text) front behind
        front' inserted behind' ∧
      Token.placeholders front' = Token.placeholders front ∧
      Token.placeholders inserted = statement.copiedPlaceholders ∧
      Token.placeholders behind' = Token.placeholders behind ∧
      Token.placeholders (Token.list (routes.shardQuery statement.edits text)) =
        Token.placeholders (Token.list text) + statement.copiedPlaceholders := by
  have plain := Dialect.isPlain_of_shipped shipped
  obtain ⟨query, describes⟩ := exists_query plain accepted
  obtain ⟨opened, _⟩ := ofText_ok accepted
  obtain ⟨front', inserted, behind', reads⟩ :=
    describes.shardReads plain (Cursor.valid_of_ofText opened) respells
  have noSymbols {token : Token} (member : token ∈ query.front ++ query.behind) :=
    describes.noSymbol_of_edited (describes.tokens_eq.symm ▸ member)
  have front := Token.placeholders_of_becomes reads.front fun token member =>
    noSymbols (List.mem_append_left _ member)
  have behind := Token.placeholders_of_becomes reads.behind fun token member =>
    noSymbols (List.mem_append_right _ member)
  have added : Token.placeholders inserted = statement.copiedPlaceholders := by
    rw [Token.placeholders_of_content reads.inserted, AddedColumn.placeholders_insertedTokens,
      sum_placeholders]
  refine ⟨_, _, front', inserted, behind', reads, front, added, behind, ?_⟩
  rw [reads.shard, reads.tokens]
  simp only [Token.placeholders_append, front, behind, added]
  omega

/-- Of two placeholders the one in the average is copied twice. -/
theorem placeholders_shardQuery_of_average :
    let text := "SELECT AVG(a + ?) FROM t WHERE t.c = ? ORDER BY d"
    let routes := Routes.ofList [("t", "t_0")]
    Dialect.generic ∈ Dialect.shipped ∧ ∃ statement, ofText .generic text = .ok statement ∧
      statement.Respells routes text ∧ statement.copiedPlaceholders = 2 ∧
      routes.shardQuery statement.edits text = "SELECT AVG(a + ?) , COUNT(a + ?) AS " ++
        "AVG_DERIVED_COUNT_0, SUM(a + ?) AS AVG_DERIVED_SUM_0, d AS ORDER_BY_DERIVED_0 " ++
        "FROM t_0 WHERE t_0.c = ? ORDER BY d" ∧
      ∃ front behind front' inserted behind',
        statement.ShardReads routes.get? text (routes.shardQuery statement.edits text) front behind
          front' inserted behind' ∧
        Token.placeholders front' = Token.placeholders front ∧
        Token.placeholders inserted = statement.copiedPlaceholders ∧
        Token.placeholders behind' = Token.placeholders behind ∧
        Token.placeholders (Token.list (routes.shardQuery statement.edits text)) =
          Token.placeholders (Token.list text) + statement.copiedPlaceholders := by
  have shipped : Dialect.generic ∈ Dialect.shipped := by simp [Dialect.shipped]
  obtain ⟨statement, accepted, respells, copied, made⟩ : ∃ statement,
      ofText .generic "SELECT AVG(a + ?) FROM t WHERE t.c = ? ORDER BY d" = .ok statement ∧
        statement.Respells (Routes.ofList [("t", "t_0")])
          "SELECT AVG(a + ?) FROM t WHERE t.c = ? ORDER BY d" ∧
        statement.copiedPlaceholders = 2 ∧
        (Routes.ofList [("t", "t_0")]).shardQuery statement.edits
          "SELECT AVG(a + ?) FROM t WHERE t.c = ? ORDER BY d" = "SELECT AVG(a + ?) , COUNT(a + ?) AS " ++
            "AVG_DERIVED_COUNT_0, SUM(a + ?) AS AVG_DERIVED_SUM_0, d AS ORDER_BY_DERIVED_0 " ++
            "FROM t_0 WHERE t_0.c = ? ORDER BY d" := by
    refine ⟨{
        items := [.aggregation ⟨.avg, "(a + ?)", none, 1, [⟨.count, "(a + ?)", "AVG_DERIVED_COUNT_0"⟩,
          ⟨.sum, "(a + ?)", "AVG_DERIVED_SUM_0"⟩]⟩]
        tables := [⟨"t", none⟩]
        orderBy := [.column ⟨none, "d", .ascending, some "ORDER_BY_DERIVED_0"⟩]
        projectionEnd := 18
        parameters := 2
        edits := [.tableName 23 "t", .tableName 31 "t",
          .projection 18 ["COUNT(a + ?) AS AVG_DERIVED_COUNT_0", "SUM(a + ?) AS AVG_DERIVED_SUM_0",
            "d AS ORDER_BY_DERIVED_0"]] }, by decide +kernel, ⟨?_, by decide +kernel, ?_, by decide +kernel⟩,
      by decide +kernel, by decide +kernel⟩
    · intro logical name found
      obtain rfl : name = "t_0" := by simpa using Routes.mem_of_get? found
      decide +kernel
    · intro column aliasName added
      change AddedColumn.key column aliasName ∈ [AddedColumn.key ⟨none, "d"⟩ "ORDER_BY_DERIVED_0"]
        at added
      obtain ⟨rfl, _⟩ := AddedColumn.key.inj (List.mem_singleton.mp added)
      exact ⟨by simp, by decide⟩
  exact ⟨shipped, statement, accepted, respells, copied, made,
    placeholders_shardQuery shipped accepted respells⟩

/-- The one placeholder of a query that is an argument of an average is one of three. -/
theorem placeholder_of_average_copied :
    let text := "SELECT AVG(?) FROM t"
    let routes := Routes.ofList []
    Dialect.generic ∈ Dialect.shipped ∧ ∃ statement, ofText .generic text = .ok statement ∧
      (∀ logical name, routes.get? logical = some name → Text.IsName name) ∧
      Token.placeholders (Token.list text) = 1 ∧
      Token.placeholders (Token.list (routes.shardQuery statement.edits text)) = 3 := by
  have shipped : Dialect.generic ∈ Dialect.shipped := by simp [Dialect.shipped]
  have accepted : ofText .generic "SELECT AVG(?) FROM t" = .ok
      { items := [.aggregation ⟨.avg, "(?)", none, 1, [⟨.count, "(?)", "AVG_DERIVED_COUNT_0"⟩,
          ⟨.sum, "(?)", "AVG_DERIVED_SUM_0"⟩]⟩]
        tables := [⟨"t", none⟩]
        projectionEnd := 14
        parameters := 1
        edits := [.tableName 19 "t", .projection 14 ["COUNT(?) AS AVG_DERIVED_COUNT_0",
          "SUM(?) AS AVG_DERIVED_SUM_0"]] } := by
    decide +kernel
  refine ⟨shipped, _, accepted, fun logical name found => ?_, by decide, by decide⟩
  cases Routes.mem_of_get? found

end Statement

end SelectRouting
