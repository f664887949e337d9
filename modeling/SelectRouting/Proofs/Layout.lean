import SelectRouting.Proofs.AddedColumns
import SelectRouting.Proofs.Parallel
import SelectRouting.Proofs.TokenNumbers

/-!
# Blanks and comments between tokens

Two texts with the same tokens, which stand at other places since other blanks and comments are between
them, are analysed to the same error at the same token, or to statements with the same names, keys and
edits of names (`Statement.ofText_relaid`). Only the expressions of the projection list are kept as they
are written, so the columns of the keys may be found among the items in the one layout and not in the
other.
-/

namespace SelectRouting

/-- The texts of tokens count, and the numbers of tokens in place of their offsets. -/
def Likeness.relaid (text text' : String) : Likeness where
  text := Eq
  quote _ _ := True
  place := SamePlace text text'
  count := Eq
  token := Token.SameNumber text text'

section Relaid
variable {text text' : String}

instance : (Likeness.relaid text text').Lawful where
  refl _ := rfl
  append left right := congrArg₂ (· ++ ·) left right
  stripQuotes_name same := congrArg Text.stripQuotes same
  text_of_name := id
  stripQuotes same := congrArg Text.stripQuotes same
  name_of_word alike _ := alike.lexeme
  spells {token token'} alike word _ := by rw [show token.lexeme = token'.lexeme from alike.lexeme]
  stripQuotes_quote := id
  quote_empty := trivial
  count_succ := congrArg Nat.succ

instance : (Likeness.relaid text text').Exact := ⟨id, id⟩

variable (same : (Token.list text).map Token.content = (Token.list text').map Token.content)
include same

theorem Token.length_list_of_content : (Token.list text').length = (Token.list text).length := by
  simpa using (congrArg List.length same).symm

theorem Likeness.relaid_spelled : (Likeness.relaid text text').Spelled where
  le_iff places tokens := places.le_iff (Token.length_list_of_content same) tokens.common
  spelled {token token'} alike := by
    rw [show token.lexeme = token'.lexeme from alike.lexeme]
    exact Text.sameIgnoringCase_iff.mpr rfl

/-- Tokens of the same number are the same. -/
theorem Token.SameNumber.content_eq {token other : Token}
    (number : Token.SameNumber text text' token other) : token.content = other.content := by
  obtain ⟨n, found, found'⟩ := number
  have all : (Token.tokenize text).map Token.content = (Token.tokenize text').map Token.content := by
    rw [Token.tokenize, Token.tokenize, List.map_append, List.map_append, same]
    rfl
  have here := congrArg (fun contents => contents[n]?) all
  simpa [found, found'] using here

/-- The cursors before the first tokens of texts with the same tokens are alike. -/
theorem Cursor.like_relaid : Cursor.Like (Likeness.relaid text text')
    { text, rest := Token.list text } { text := text', rest := Token.list text' } := by
  have lexemes {token other : Token} (number : Token.SameNumber text text' token other) :
      token.lexeme = other.lexeme := congrArg Prod.snd (number.content_eq same)
  refine like_of_numbers (Token.length_list_of_content same) (fun {token other} number => ?_)
    (fun _ _ found found' => lexemes ⟨_, found, found'⟩) .front rfl fun _ _ => trivial
  refine ⟨?_, lexemes number, ⟨.start number, .stop number⟩, number⟩
  rw [Token.kind_eq_of_content (number.content_eq same)]
  exact .same _

end Relaid

/-- The expression of the item is the column of the name, without quotes and ignoring case. -/
def Item.isColumn (name : String) (item : Item) : Bool :=
  Text.sameIgnoringCase (Text.stripQuotes item.expression) (Text.stripQuotes name)

/-- The columns that the edit adds. -/
def Edit.columns : Edit → List String
  | .tableName _ _ => []
  | .projection _ columns => columns

/-- The statements have the same names, numbers and keys, and edits of names at tokens of the same
number. Where the same items are found for the columns of the keys, these also have the same aliases,
and equally many columns are added. -/
structure Statement.Relaid (text text' : String) (statement other : Statement) : Prop where
  tables : other.tables = statement.tables
  limit : other.limit = statement.limit
  parameters : other.parameters = statement.parameters
  edits : List.Forall₂ (Edit.AtTokens (.relaid text text')) (statement.edits.filter Edit.isName)
    (other.edits.filter Edit.isName)
  orderBy : other.orderBy.map OrderKey.bare = statement.orderBy.map OrderKey.bare
  groupBy : other.groupBy.map ColumnKey.bare = statement.groupBy.map ColumnKey.bare
  found : (statement.containsStar = false → ∀ key ∈ statement.columnKeys,
      other.items.map (Item.isColumn key.qualifiedName) =
        statement.items.map (Item.isColumn key.qualifiedName)) →
    other.orderBy = statement.orderBy ∧ other.groupBy = statement.groupBy ∧
      (other.edits.flatMap Edit.columns).length = (statement.edits.flatMap Edit.columns).length

namespace Statement
variable {s s' : Statement}

/-- Items with the same aliases tell the same of a column that is the expression of the same items. -/
theorem aliasOf?_congr {name : String} (star : s'.containsStar = s.containsStar)
    (aliases : s'.items.map Item.aliasName = s.items.map Item.aliasName)
    (columns : s.containsStar = false →
      s'.items.map (Item.isColumn name) = s.items.map (Item.isColumn name)) :
    s'.aliasOf? name = s.aliasOf? name := by
  rw [aliasOf?_eq, aliasOf?_eq, star]
  cases known : s.containsStar with
  | true => rfl
  | false =>
    have columns := columns known
    rw [if_neg Bool.false_ne_true, if_neg Bool.false_ne_true]
    refine congrArg Option.join ?_
    generalize s.items = items at aliases columns ⊢
    generalize s'.items = items' at aliases columns ⊢
    induction items generalizing items' with
    | nil => rw [List.map_eq_nil_iff.mp columns]
    | cons item items ih =>
      obtain ⟨item', items', rfl, isColumn, columns⟩ := List.map_eq_cons_iff.mp columns
      obtain ⟨aliasName, aliases⟩ := List.cons.inj aliases
      have told : Item.aliasTold? name item'.face = Item.aliasTold? name item.face := by
        unfold Item.aliasTold? Item.face
        rw [← Item.isColumn, ← Item.isColumn, isColumn, aliasName]
      rw [List.map_cons, List.map_cons, List.findSome?_cons, List.findSome?_cons, told,
        ih items' aliases columns]

end Statement

section Keys
variable {told told' : String → Option String}

/-- Keys of the same columns are the same where the same aliases are told for them. -/
theorem ColumnKey.eq_of_bare {key other : ColumnKey} (bare : other.bare = key.bare)
    (given : key.aliasName = told key.qualifiedName)
    (givenOther : other.aliasName = told' other.qualifiedName)
    (same : told' key.qualifiedName = told key.qualifiedName) : other = key := by
  have named : other.bare.qualifiedName = key.bare.qualifiedName := congrArg qualifiedName bare
  change other.qualifiedName = key.qualifiedName at named
  obtain ⟨owner, name, direction, aliasName⟩ := key
  obtain ⟨owner', name', direction', aliasName'⟩ := other
  obtain ⟨rfl, rfl, rfl, -⟩ := ColumnKey.mk.inj bare
  rw [named, same] at givenOther
  rw [show aliasName' = aliasName from givenOther.trans given.symm]

theorem ColumnKey.all_eq_of_bare {keys others : List ColumnKey}
    (bare : others.map ColumnKey.bare = keys.map ColumnKey.bare)
    (given : ∀ key ∈ keys, key.aliasName = told key.qualifiedName)
    (givenOthers : ∀ key ∈ others, key.aliasName = told' key.qualifiedName)
    (same : ∀ key ∈ keys, told' key.qualifiedName = told key.qualifiedName) : others = keys := by
  induction keys generalizing others with
  | nil => exact List.map_eq_nil_iff.mp bare
  | cons key keys ih =>
    obtain ⟨other, others, rfl, first, rest⟩ := List.map_eq_cons_iff.mp bare
    rw [List.forall_mem_cons] at given givenOthers same
    rw [ColumnKey.eq_of_bare first given.1 givenOthers.1 same.1,
      ih rest given.2 givenOthers.2 same.2]

theorem OrderKey.all_eq_of_bare {keys others : List OrderKey}
    (bare : others.map OrderKey.bare = keys.map OrderKey.bare)
    (given : ∀ key ∈ keys.filterMap columnKey?, key.aliasName = told key.qualifiedName)
    (givenOthers : ∀ key ∈ others.filterMap columnKey?, key.aliasName = told' key.qualifiedName)
    (same : ∀ key ∈ keys.filterMap columnKey?, told' key.qualifiedName = told key.qualifiedName) :
    others = keys := by
  induction keys generalizing others with
  | nil => exact List.map_eq_nil_iff.mp bare
  | cons key keys ih =>
    obtain ⟨other, others, rfl, first, rest⟩ := List.map_eq_cons_iff.mp bare
    cases key with
    | position index direction =>
      cases other with
      | column => cases first
      | position =>
        obtain ⟨rfl, rfl⟩ := OrderKey.position.inj first
        rw [ih rest given givenOthers same]
    | column key =>
      cases other with
      | position => cases first
      | column other =>
        rw [filterMap_columnKey?_cons, List.forall_mem_cons] at given givenOthers same
        rw [ColumnKey.eq_of_bare (OrderKey.column.inj first) given.1 givenOthers.1 same.1,
          ih rest given.2 givenOthers.2 same.2]

end Keys

namespace Statement
variable {s s' : Statement}

/-- The same keys get the same derived aliases. -/
theorem orderBy_derived_congr (star : s'.containsStar = s.containsStar) (same : s'.orderBy = s.orderBy) :
    s'.withDerivedColumns.orderBy = s.withDerivedColumns.orderBy := by
  unfold withDerivedColumns
  rw [star, same]

theorem groupBy_derived_congr (star : s'.containsStar = s.containsStar) (same : s'.groupBy = s.groupBy) :
    s'.withDerivedColumns.groupBy = s.withDerivedColumns.groupBy := by
  unfold withDerivedColumns
  rw [star, same]

/-- Statements of the same keys, for whose columns the same aliases are told, have the same aliases. -/
theorem keys_eq {items items' : List Item} {star star' : Bool} (resolves : s.Resolves items star)
    (resolves' : s'.Resolves items' star')
    (orderBy : s'.orderBy.map OrderKey.bare = s.orderBy.map OrderKey.bare)
    (groupBy : s'.groupBy.map ColumnKey.bare = s.groupBy.map ColumnKey.bare)
    (told : ∀ key ∈ s.columnKeys, s'.aliasOf? key.qualifiedName = s.aliasOf? key.qualifiedName) :
    s'.orderBy = s.orderBy ∧ s'.groupBy = s.groupBy :=
  ⟨OrderKey.all_eq_of_bare orderBy (fun key member => resolves.keys key (List.mem_append_left _ member))
      (fun key member => resolves'.keys key (List.mem_append_left _ member))
      fun key member => told key (List.mem_append_left _ member),
    ColumnKey.all_eq_of_bare groupBy
      (fun key member => resolves.keys key (List.mem_append_right _ member))
      (fun key member => resolves'.keys key (List.mem_append_right _ member))
      fun key member => told key (List.mem_append_right _ member)⟩

/-- The derived aliases leave the columns among the keys as they are. -/
theorem columns_withDerivedColumns (parsed : Statement) :
    parsed.withDerivedColumns.columnKeys.map ColumnKey.column =
      parsed.columnKeys.map ColumnKey.column := by
  rw [columnKeys, List.map_append, columnKeys, List.map_append]
  exact congrArg₂ (· ++ ·) (orderColumns_withDerivedColumns parsed)
    (groupColumns_withDerivedColumns parsed)

/-- Equally many columns are added for items that are alike and for the same keys. -/
theorem length_addedColumns {like : Likeness} (items : List.Forall₂ (Item.Like like) s.items s'.items)
    (aliases : s'.items.map Item.aliasName = s.items.map Item.aliasName)
    (star : s'.containsStar = s.containsStar) (orderBy : s'.orderBy = s.orderBy)
    (groupBy : s'.groupBy = s.groupBy)
    (told : ∀ key ∈ s.columnKeys, s'.aliasOf? key.qualifiedName = s.aliasOf? key.qualifiedName) :
    s'.addedColumns.length = s.addedColumns.length := by
  have projected : s'.projectedAliases = s.projectedAliases := by
    have given (items : List Item) : items.filterMap Item.aliasName =
        (items.map Item.aliasName).filterMap id := by
      rw [List.filterMap_map]
      rfl
    rw [projectedAliases, given, aliases, ← given]
    rfl
  have parts : s'.addedParts.length = s.addedParts.length := by
    unfold addedParts
    rw [projected]
    have filtered := Item.averageParts_like items 0
    generalize Item.averageParts 0 s.items = parts at filtered ⊢
    generalize Item.averageParts 0 s'.items = parts' at filtered ⊢
    induction filtered with
    | nil => rfl
    | cons first _ ih =>
      rw [List.filter_cons, List.filter_cons, first.aliasName]
      split
      · rw [List.length_cons, List.length_cons, ih]
      · exact ih
  have unprojected (keys : List ColumnKey) (among : keys ⊆ s.columnKeys) :
      s'.unprojected (keys.map ColumnKey.column) = s.unprojected (keys.map ColumnKey.column) := by
    refine List.filter_congr fun column member => ?_
    obtain ⟨key, inside, rfl⟩ := List.mem_map.mp member
    rw [ColumnKey.text_column, told key (among inside)]
  have keys : s'.addedKeys = s.addedKeys := by
    unfold addedKeys orderColumns groupColumns
    rw [star, orderBy, groupBy, unprojected _ (List.subset_append_left ..),
      unprojected _ (List.subset_append_right ..)]
  rw [addedColumns, addedColumns, List.length_append, List.length_append, List.length_map,
    List.length_map, parts, keys]

end Statement

/-- An insertion adds all columns that are missing. -/
theorem Query.Describes.columns_eq {query : Query} {dialect : Dialect} {text : String}
    {statement : Statement} (describes : query.Describes dialect text statement) :
    statement.edits.flatMap Edit.columns = statement.addedColumns.map AddedColumn.text := by
  have names (tokens : List Token) : (tokens.map Token.edit).flatMap Edit.columns = [] := by
    rw [List.flatMap_map]
    exact List.flatMap_eq_nil_iff.mpr fun _ _ => rfl
  rw [describes.edits_eq, List.flatMap_append, names, List.nil_append, Statement.insertions]
  split
  · next none => rw [none]; rfl
  · exact List.append_nil _

/-- Parallel statements with the same aliases have the same keys and equally many columns added, where
the same items are found for the columns of the keys. -/
theorem Statement.Parallel.found {like : Likeness} (eq_of_text : ∀ {written written' : String},
      like.text written written' → written = written') {dialect : Dialect} {text text' : String}
    {query query' : Query} {s s' : Statement} (parallel : Parallel like s s')
    (describes : query.Describes dialect text s) (describes' : query'.Describes dialect text' s')
    (columns : s.containsStar = false → ∀ key ∈ s.columnKeys,
      s'.items.map (Item.isColumn key.qualifiedName) = s.items.map (Item.isColumn key.qualifiedName)) :
    s'.orderBy = s.orderBy ∧ s'.groupBy = s.groupBy ∧
      (s'.edits.flatMap Edit.columns).length = (s.edits.flatMap Edit.columns).length := by
  have aliases : s'.items.map Item.aliasName = s.items.map Item.aliasName := by
    have items := parallel.items
    generalize s.items = items at items ⊢
    generalize s'.items = items' at items ⊢
    induction items with
    | nil => rfl
    | @cons item item' _ _ first _ ih =>
      have same : item'.aliasName = item.aliasName := by
        have given := first.aliasName
        generalize item.aliasName = given at given ⊢
        generalize item'.aliasName = given' at given ⊢
        cases given with
        | none => rfl
        | some same => rw [eq_of_text same]
      rw [List.map_cons, List.map_cons, same, ih]
  have told : ∀ key ∈ s.columnKeys, s'.aliasOf? key.qualifiedName = s.aliasOf? key.qualifiedName :=
    fun key member => aliasOf?_congr parallel.containsStar aliases fun known => columns known key member
  obtain ⟨parsed, rfl, -, -, -, _, -, resolves⟩ := describes.derived
  obtain ⟨parsed', rfl, -, -, -, _, -, resolves'⟩ := describes'.derived
  have parsedTold : ∀ key ∈ parsed.columnKeys,
      parsed'.aliasOf? key.qualifiedName = parsed.aliasOf? key.qualifiedName := by
    intro key member
    have column : key.column ∈ parsed.columnKeys.map ColumnKey.column := List.mem_map_of_mem member
    rw [← columns_withDerivedColumns] at column
    obtain ⟨other, among, same⟩ := List.mem_map.mp column
    have here := told other among
    rw [aliasOf?_withDerivedColumns, aliasOf?_withDerivedColumns, ← ColumnKey.text_column, same] at here
    exact here
  have orders := parallel.orderBy
  have groups := parallel.groupBy
  rw [parsed.alike_withDerivedColumns.orderBy, parsed'.alike_withDerivedColumns.orderBy] at orders
  rw [parsed.alike_withDerivedColumns.groupBy, parsed'.alike_withDerivedColumns.groupBy] at groups
  obtain ⟨orderBy, groupBy⟩ := keys_eq resolves resolves' orders groups parsedTold
  have star : parsed'.containsStar = parsed.containsStar := parallel.containsStar
  have order := orderBy_derived_congr star orderBy
  have group := groupBy_derived_congr star groupBy
  refine ⟨order, group, ?_⟩
  rw [describes.columns_eq, describes'.columns_eq, List.length_map, List.length_map]
  exact length_addedColumns parallel.items aliases parallel.containsStar order group told

namespace Statement

/-- **The layout does not matter, up to the columns that are found.** Texts with the same tokens, at
whatever places, are both rejected with the same error at the token of the same number, or both
accepted, with the same tables, row limit and number of placeholders, with the edits of names at tokens
of the same number, and with the same keys up to their aliases. The aliases and the number of columns
that are added are the same as well, where the expressions of the items, which keep their blanks and
comments, are the columns of the same keys. -/
theorem ofText_relaid {dialect : Dialect} (shipped : dialect ∈ Dialect.shipped) {text text' : String}
    (same : (Token.list text).map Token.content = (Token.list text').map Token.content) :
    SameOutcome (ParseError.Alike (.relaid text text')) (Relaid text text') (ofText dialect text)
      (ofText dialect text') := by
  have plain := Dialect.isPlain_of_shipped shipped
  have spelled := Likeness.relaid_spelled same
  have outcome := @ofText_parallel _ _ _ _ dialect _ _ (Cursor.like_relaid same)
    fun _ alike => .of_spelled alike
  generalize accepted : ofText dialect text = answer at outcome ⊢
  generalize accepted' : ofText dialect text' = answer' at outcome ⊢
  cases outcome with
  | error alike => exact .error alike
  | @ok s s' parallel =>
    obtain ⟨query, describes⟩ := exists_query plain accepted
    obtain ⟨query', describes'⟩ := exists_query plain accepted'
    exact .ok ⟨parallel.tables_eq fun _ _ _ _ _ _ _ _ same => same.symm, parallel.limit,
      parallel.parameters, parallel.edits, parallel.orderBy, parallel.groupBy,
      parallel.found id describes describes'⟩

/-- A query on one line, and with its clauses on lines of their own. -/
theorem ofText_relaid_of_lines :
    let text := "SELECT a, t.b AS x FROM t WHERE t.c = ? ORDER BY t.b"
    let text' := "SELECT\n  a,\n  t.b AS x -- the key\nFROM t\nWHERE t . c = ?\nORDER BY t./**/b"
    Dialect.generic ∈ Dialect.shipped ∧
      (Token.list text).map Token.content = (Token.list text').map Token.content ∧
      ∃ statement other, ofText .generic text = .ok statement ∧ ofText .generic text' = .ok other ∧
        Relaid text text' statement other ∧ other.orderBy = statement.orderBy := by
  let text := "SELECT a, t.b AS x FROM t WHERE t.c = ? ORDER BY t.b"
  let text' := "SELECT\n  a,\n  t.b AS x -- the key\nFROM t\nWHERE t . c = ?\nORDER BY t./**/b"
  have shipped : Dialect.generic ∈ Dialect.shipped := by simp [Dialect.shipped]
  obtain ⟨same, accepted, accepted'⟩ :
      (Token.list text).map Token.content = (Token.list text').map Token.content ∧
      ofText .generic text = .ok
        { items := [.plain "a" none, .plain "t.b" (some "x")]
          tables := [⟨"t", none⟩]
          orderBy := [.column ⟨some "t", "b", .ascending, some "x"⟩]
          projectionEnd := 19
          parameters := 1
          edits := [.tableName 10 "t", .tableName 24 "t", .tableName 32 "t", .tableName 49 "t"] } ∧
      ofText .generic text' = .ok
        { items := [.plain "a" none, .plain "t.b" (some "x")]
          tables := [⟨"t", none⟩]
          orderBy := [.column ⟨some "t", "b", .ascending, some "x"⟩]
          projectionEnd := 34
          parameters := 1
          edits := [.tableName 14 "t", .tableName 39 "t", .tableName 47 "t", .tableName 66 "t"] } := by
    decide +kernel
  have outcome := ofText_relaid shipped same
  rw [accepted, accepted'] at outcome
  cases outcome with
  | ok relaid =>
    exact ⟨shipped, same, _, _, accepted, accepted', relaid, (relaid.found fun _ _ _ => rfl).1⟩

/-- A column with blanks around its point is not found among the keys. -/
theorem spaced_column_not_found :
    let text := "SELECT t . a AS x FROM t ORDER BY t.a"
    let text' := "SELECT t.a AS x FROM t ORDER BY t.a"
    (Token.list text).map Token.content = (Token.list text').map Token.content ∧
      ∃ statement other, ofText .generic text = .ok statement ∧ ofText .generic text' = .ok other ∧
        statement.orderBy = [.column ⟨some "t", "a", .ascending, some "ORDER_BY_DERIVED_0"⟩] ∧
        other.orderBy = [.column ⟨some "t", "a", .ascending, some "x"⟩] ∧
        statement.edits.flatMap Edit.columns = ["t.a AS ORDER_BY_DERIVED_0"] ∧
        other.edits.flatMap Edit.columns = [] := by
  refine ⟨by decide +kernel,
    { items := [.plain "t . a" (some "x")]
      tables := [⟨"t", none⟩]
      orderBy := [.column ⟨some "t", "a", .ascending, some "ORDER_BY_DERIVED_0"⟩]
      projectionEnd := 18
      edits := [.tableName 7 "t", .tableName 23 "t", .tableName 34 "t",
        .projection 18 ["t.a AS ORDER_BY_DERIVED_0"]] },
    { items := [.plain "t.a" (some "x")]
      tables := [⟨"t", none⟩]
      orderBy := [.column ⟨some "t", "a", .ascending, some "x"⟩]
      projectionEnd := 16
      edits := [.tableName 7 "t", .tableName 21 "t", .tableName 32 "t"] }, ?_⟩
  decide +kernel

end Statement

end SelectRouting
