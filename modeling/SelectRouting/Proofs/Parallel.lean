import SelectRouting.Proofs.Mirroring
import SelectRouting.Proofs.AgreeingProjection

/-!
# Statements of parallel texts

Two texts are parallel when they have the same names at tokens that are alike, whatever their places and
the expressions in their projection lists. The statements that are read of them have the same parts
(`Statement.Parallel`), when both are read (`Statement.ofText_parallel`).
-/

namespace SelectRouting

/-- Names are alike when they are the same, and so are the numbers of placeholders. -/
class Likeness.Exact (like : Likeness) : Prop where
  eq_of_name : ∀ {name name' : String}, like.name name name' → name = name'
  eq_of_count : ∀ {index index' : Nat}, like.count index index' → index = index'

/-- The edit is about the name of a table. -/
def Edit.isName : Edit → Bool
  | .tableName _ _ => true
  | .projection _ _ => false

section Like
variable (like : Likeness)

/-- The edits are about the same name, at tokens that are alike. -/
inductive Edit.AtTokens : Edit → Edit → Prop where
  | edit {token token' : Token} : Token.Like like token token' → token'.lexeme = token.lexeme →
      AtTokens token.edit token'.edit

/-- The statements have the same parts: items and aliases of tables that are alike, the same names, the
same keys, whatever their aliases, and edits of names at tokens that are alike. -/
structure Statement.Parallel (statement other : Statement) : Prop where
  distinct : other.distinct = statement.distinct
  items : List.Forall₂ (Item.Like like) statement.items other.items
  tables : List.Forall₂ (fun table table' : Table => table'.name = table.name ∧
    Option.Rel like.text table.aliasName table'.aliasName) statement.tables other.tables
  groupBy : other.groupBy.map ColumnKey.bare = statement.groupBy.map ColumnKey.bare
  orderBy : other.orderBy.map OrderKey.bare = statement.orderBy.map OrderKey.bare
  containsStar : other.containsStar = statement.containsStar
  parameters : other.parameters = statement.parameters
  limit : other.limit = statement.limit
  edits : List.Forall₂ (Edit.AtTokens like) (statement.edits.filter Edit.isName)
    (other.edits.filter Edit.isName)

end Like

/-- Row limits with the same numbers of placeholders are the same. -/
theorem Limit.Like.eq {like : Likeness} [like.Exact] {limit other : Limit} (alike : Limit.Like like limit other) :
    other = limit := by
  have operand {value other : Option LimitValue}
      (same : Option.Rel (LimitValue.Like like) value other) : other = value := by
    cases same with
    | none => rfl
    | some same =>
      cases same with
      | literal => rfl
      | parameter counted => rw [Likeness.Exact.eq_of_count counted]
  exact congrArg₂ Limit.mk (operand alike.offset) (operand alike.rowCount)

namespace Statement.Parallel
variable {like : Likeness} {s s' : Statement}

theorem findTable? (parallel : Parallel like s s') (name : String) :
    (s'.findTable? name).isSome = (s.findTable? name).isSome := by
  rw [Statement.findTable?, Statement.findTable?, List.isSome_find?, List.isSome_find?]
  have tables := parallel.tables
  generalize s.tables = tables at tables ⊢
  generalize s'.tables = tables' at tables ⊢
  induction tables with
  | nil => rfl
  | cons first _ ih => rw [List.any_cons, List.any_cons, ih, first.1]

theorem names_eq (parallel : Parallel like s s') :
    s'.tables.map Table.name = s.tables.map Table.name := by
  have tables := parallel.tables
  generalize s.tables = tables at tables ⊢
  generalize s'.tables = tables' at tables ⊢
  induction tables with
  | nil => rfl
  | cons first _ ih => rw [List.map_cons, List.map_cons, first.1, ih]

/-- The tables are the same where their aliases are the same if they are alike. -/
theorem tables_eq (parallel : Parallel like s s')
    (same : ∀ table ∈ s.tables, ∀ table' ∈ s'.tables, ∀ given ∈ table.aliasName,
      ∀ given' ∈ table'.aliasName, like.text given given' → given' = given) : s'.tables = s.tables := by
  have tables := parallel.tables
  generalize s.tables = tables at tables same ⊢
  generalize s'.tables = tables' at tables same ⊢
  induction tables with
  | nil => rfl
  | @cons table table' _ _ first _ ih =>
    have aliases : table'.aliasName = table.aliasName := by
      have here := same table List.mem_cons_self table' List.mem_cons_self
      have alike := first.2
      generalize table.aliasName = given at alike here ⊢
      generalize table'.aliasName = given' at alike here ⊢
      cases alike with
      | none => rfl
      | some alike => exact congrArg some (here _ rfl _ rfl alike)
    rw [ih fun table inside table' inside' =>
      same table (List.mem_cons_of_mem _ inside) table' (List.mem_cons_of_mem _ inside')]
    exact congrArg (· :: _) (congrArg₂ Table.mk first.1 aliases)

/-- Each edit of a name in the second statement has one in the first at a token that is alike. -/
theorem exists_edit (parallel : Parallel like s s') {edit : Edit} (member : edit ∈ s'.edits)
    (isName : edit.isName = true) : ∃ other ∈ s.edits, Edit.AtTokens like other edit := by
  obtain ⟨i, inside, rfl⟩ := List.mem_iff_getElem.mp (List.mem_filter.mpr ⟨member, isName⟩)
  obtain ⟨length, all⟩ := List.forall₂_iff_get.mp parallel.edits
  have inside' := length ▸ inside
  exact ⟨_, (List.mem_filter.mp (List.getElem_mem inside')).1, all i inside' inside⟩

instance [like.Exact] : EditRelation like (Parallel like) where
  edits alike token named := by
    refine { alike with edits := ?_ }
    rw [List.filter_append, List.filter_append]
    exact List.rel_append alike.edits
      (.cons (.edit token (Likeness.Exact.eq_of_name named).symm) .nil)

instance [like.Exact] : HeadRelation like (Parallel like) where
  distinct alike := { alike with distinct := rfl }
  items alike same :=
    { alike with
      items := List.rel_append alike.items (.cons same .nil)
      containsStar := congrArg₂ (· || ·) alike.containsStar same.isStar_eq }
  projectionEnd alike _ := { alike with }

instance [like.Exact] : ClauseRelation like AnyAlias (Parallel like) where
  isEmpty_tables alike := by
    rw [Bool.eq_iff_iff, List.isEmpty_iff_length_eq_zero, List.isEmpty_iff_length_eq_zero,
      alike.tables.length_eq]
  withOwner {_ _ owner owner'} alike owners := by
    have same : owner'.value = owner.value := by
      cases owners with
      | ofToken _ named => exact congrArg Text.stripQuotes (Likeness.Exact.eq_of_name named).symm
    refine EditRelation.withOwner alike owners ?_
    rw [same]
    exact alike.findTable? _
  aliasOf _ _ := trivial
  tables alike names aliases :=
    { alike with
      tables := List.rel_append alike.tables
        (.cons ⟨(Likeness.Exact.eq_of_name names).symm, aliases⟩ .nil) }
  parameters alike counted := { alike with parameters := (Likeness.Exact.eq_of_count counted).symm }
  groupKeys alike same :=
    { alike with groupBy := by simp [alike.groupBy, same.bare_eq Likeness.Exact.eq_of_name] }
  orderKeys alike same :=
    { alike with orderBy := by simp [alike.orderBy, same.bare_eq Likeness.Exact.eq_of_name] }
  limits alike same := { alike with limit := congrArg some same.eq }

theorem filter_edits_withDerivedColumns (statement : Statement) :
    statement.withDerivedColumns.edits.filter Edit.isName = statement.edits.filter Edit.isName := by
  have added (columns : List String) : (if columns.isEmpty then statement.edits
      else statement.edits ++ [.projection statement.projectionEnd columns]).filter Edit.isName =
        statement.edits.filter Edit.isName := by
    split
    · rfl
    · rw [List.filter_append, List.filter_cons_of_neg (by simp [Edit.isName]), List.filter_nil,
        List.append_nil]
  exact added _

/-- The derived columns keep statements parallel. -/
theorem withDerivedColumns (parallel : Parallel like s s') :
    Parallel like s.withDerivedColumns s'.withDerivedColumns where
  distinct := parallel.distinct
  items := Item.splitAverages_like parallel.items 0
  tables := parallel.tables
  groupBy := by
    rw [s'.alike_withDerivedColumns.groupBy, s.alike_withDerivedColumns.groupBy, parallel.groupBy]
  orderBy := by
    rw [s'.alike_withDerivedColumns.orderBy, s.alike_withDerivedColumns.orderBy, parallel.orderBy]
  containsStar := parallel.containsStar
  parameters := parallel.parameters
  limit := parallel.limit
  edits := by
    rw [filter_edits_withDerivedColumns, filter_edits_withDerivedColumns]
    exact parallel.edits

end Statement.Parallel

/-- Texts whose tokens are alike are analysed in the same way where the reader goes the same way on
them. -/
theorem Statement.ofText_agrees {like : Likeness} {related : Statement → Statement → Prop}
    {dialect : Dialect} {text text' : String}
    (tokens : List.Forall₂ (Token.Like like) (Token.list text) (Token.list text'))
    (agrees : Step.AgreesAt like (Analysis.Like like related) Eq (AnalysisStep.select dialect)
      (AnalysisStep.select dialect) { cursor := { text, rest := Token.list text } }
      { cursor := { text := text', rest := Token.list text' } }) :
    SameOutcome (ParseError.Alike like) related (ofText dialect text) (ofText dialect text') := by
  have valid := Cursor.firstLexicalError?_alike tokens
  unfold ofText analyze Cursor.ofText
  dsimp only
  generalize Cursor.firstLexicalError? (Token.list text) = error at valid ⊢
  generalize Cursor.firstLexicalError? (Token.list text') = error' at valid ⊢
  cases valid with
  | some alike => exact .error alike
  | none =>
    obtain ⟨outcome, after⟩ := agrees
    dsimp only
    unfold ofCursor
    generalize AnalysisStep.select dialect { cursor := { text, rest := Token.list text } } = ran
      at outcome after ⊢
    generalize AnalysisStep.select dialect { cursor := { text := text', rest := Token.list text' } } =
      ran' at outcome after ⊢
    obtain ⟨answer, state⟩ := ran
    obtain ⟨answer', state'⟩ := ran'
    cases outcome with
    | error alike => exact .error alike
    | ok => exact .ok after.statement

/-- Texts whose tokens are alike are analysed to the same error or to parallel statements, where their
items begin in the same way. -/
theorem Statement.ofText_parallel {like : Likeness} [like.Lawful] [like.Ordered] [like.Exact]
    {dialect : Dialect} {text text' : String}
    (alike : Cursor.Like like { text, rest := Token.list text } { text := text', rest := Token.list text' })
    (fronts : ∀ {position : Nat} {begins begins' : Analysis},
      AnalysisStep.ItemStart dialect { cursor := { text, rest := Token.list text } } position begins →
      Cursor.Like like begins.cursor begins'.cursor →
      AnalysisStep.SameFront dialect begins.cursor begins'.cursor) :
    SameOutcome (ParseError.Alike like) (Parallel like) (ofText dialect text) (ofText dialect text') := by
  have start : Analysis.Like like (Parallel like) { cursor := { text, rest := Token.list text } }
      { cursor := { text := text', rest := Token.list text' } } :=
    ⟨alike, ⟨rfl, .nil, .nil, rfl, rfl, rfl, rfl, rfl, .nil⟩⟩
  exact ofText_agrees alike.rest
    (AnalysisStep.select_agreesAt (fun _ _ parallel => parallel.withDerivedColumns) dialect start
      fun begins same => fronts begins same.cursor)

end SelectRouting
