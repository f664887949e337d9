import SelectRouting.Proofs.AgreeingProjection

/-!
# The case of letters does not matter

Two queries that are the same in lower case are analysed in the same way: to the same error at the same
place, or to statements that differ in the case of letters in their texts only
(`Statement.ofText_ignoringCase`).
-/

namespace SelectRouting

section Like
variable (like : Likeness)

/-- The edits are of the same kind, at places that are alike and with texts that are alike. -/
inductive Edit.Like : Edit → Edit → Prop where
  | tableName {offset offset' : Nat} {text text' : String} : like.place offset offset' →
      like.text text text' → Like (.tableName offset text) (.tableName offset' text')
  | projection {offset offset' : Nat} {columns columns' : List String} :
      like.place offset offset' → List.Forall₂ like.quote columns columns' →
      Like (.projection offset columns) (.projection offset' columns')

/-- The statements have the same parts, and corresponding texts, places and numbers of placeholders are
alike. -/
structure Statement.Like (statement other : Statement) : Prop where
  distinct : other.distinct = statement.distinct
  items : List.Forall₂ (Item.Like like) statement.items other.items
  tables : List.Forall₂ (Table.Like like) statement.tables other.tables
  groupBy : List.Forall₂ (ColumnKey.Like like (Option.Rel like.text)) statement.groupBy other.groupBy
  orderBy : List.Forall₂ (OrderKey.Like like (Option.Rel like.text)) statement.orderBy other.orderBy
  containsStar : other.containsStar = statement.containsStar
  projectionEnd : like.place statement.projectionEnd other.projectionEnd
  parameters : like.count statement.parameters other.parameters
  limit : Option.Rel (Limit.Like like) statement.limit other.limit
  edits : List.Forall₂ (Edit.Like like) statement.edits other.edits

end Like

namespace Likeness

/-- Texts are alike when they are the same in lower case; offsets and numbers are alike when they are
equal. -/
def ignoringCase : Likeness where
  text left right := Text.lower left = Text.lower right
  quote left right := Text.lower left = Text.lower right
  place := Eq
  count := Eq

theorem stripQuotes_ignoringCase {text text' : String} (same : Text.lower text = Text.lower text') :
    Text.lower (Text.stripQuotes text) = Text.lower (Text.stripQuotes text') := by
  rw [← Text.stripQuotes_lower, ← Text.stripQuotes_lower, same]

instance : ignoringCase.Lawful where
  refl _ := rfl
  append left right := by
    change Text.lower (_ ++ _) = Text.lower (_ ++ _)
    rw [Text.lower_append, Text.lower_append, left, right]
  stripQuotes_name := stripQuotes_ignoringCase
  text_of_name := id
  stripQuotes := stripQuotes_ignoringCase
  name_of_word alike _ := alike.lexeme
  spells {token token'} alike word _ := by
    have same : Text.lower token.lexeme = Text.lower token'.lexeme := alike.lexeme
    rw [Bool.eq_iff_iff, Text.sameIgnoringCase_iff_lower, Text.sameIgnoringCase_iff_lower, same]
  stripQuotes_quote := stripQuotes_ignoringCase
  quote_empty := rfl
  count_succ := congrArg Nat.succ

instance : ignoringCase.Spelled where
  le_iff {place _ token token'} same alike := by
    have starts : token.start = token'.start := alike.span.start
    rw [← show place = _ from same, starts]
  spelled alike := Text.sameIgnoringCase_iff_lower.mpr alike.lexeme

end Likeness

open Likeness

section Tokens

theorem TokenKind.like_of_lower {kind other : TokenKind} (same : kind.lower = other.lower) :
    TokenKind.Like ignoringCase kind other := by
  cases kind <;> cases other <;> simp only [TokenKind.lower, reduceCtorEq, TokenKind.string.injEq,
    TokenKind.identifier.injEq] at same
  case string.string => exact .string same
  case identifier.identifier => exact .identifier same
  case endOfInput.endOfInput => exact .same _
  all_goals
    rw [same]
    exact .same _

theorem Token.like_of_lower {token other : Token} (same : token.lower = other.lower) :
    Token.Like ignoringCase token other := by
  obtain ⟨kind, start, lexeme⟩ := Token.mk.inj same
  refine ⟨TokenKind.like_of_lower kind, lexeme, ⟨start, ?_⟩, trivial⟩
  have size : token.lexeme.utf8ByteSize = other.lexeme.utf8ByteSize := by
    rw [← Text.utf8ByteSize_lower, lexeme, Text.utf8ByteSize_lower]
  exact congrArg₂ (· + ·) start size

/-- Texts that are the same in lower case have tokens that are alike. -/
theorem Token.list_ignoringCase {text text' : String} (same : Text.lower text = Text.lower text') :
    List.Forall₂ (Token.Like ignoringCase) (list text) (list text') := by
  have tokens : (list text).map Token.lower = (list text').map Token.lower := by
    rw [← list_lower, ← list_lower, same]
  rw [← List.forall₂_eq_eq_eq, List.forall₂_map_left_iff, List.forall₂_map_right_iff] at tokens
  exact tokens.imp fun _ _ => like_of_lower

/-- The cursors before the first tokens of texts that are the same in lower case are alike. -/
theorem Cursor.like_ignoringCase {text text' : String} (same : Text.lower text = Text.lower text') :
    Cursor.Like ignoringCase { text, rest := Token.list text }
      { text := text', rest := Token.list text' } := by
  have size : text.utf8ByteSize = text'.utf8ByteSize := by
    rw [← Text.utf8ByteSize_lower, same, Text.utf8ByteSize_lower]
  have tokens := Token.list_ignoringCase same
  have ended : Token.Like ignoringCase (.eof text.utf8ByteSize) (.eof text'.utf8ByteSize) := by
    rw [size]
    exact ⟨.same _, rfl, ⟨rfl, rfl⟩, trivial⟩
  refine ⟨tokens, fun n _ => (@peek_like ignoringCase _ _ tokens ended (n + 1)).lexeme, ⟨rfl, rfl⟩, rfl, ended, ?_⟩
  rintro ⟨start, stop⟩ ⟨_, _⟩ ⟨rfl, rfl⟩
  change Text.lower (Span.slice _ text) = Text.lower (Span.slice _ text')
  rw [← Span.slice_lower, ← Span.slice_lower, same]

end Tokens

section Records
variable {s s' : Statement}

theorem Item.Like.expression {item other : Item} (alike : Item.Like ignoringCase item other) :
    Text.lower item.expression = Text.lower other.expression := by
  cases alike with
  | star => rfl
  | aggregation calls =>
    rw [Item.expression, Item.expression, Aggregation.expression, Aggregation.expression,
      calls.function, Text.lower_append, Text.lower_append, calls.argument]
  | plain same _ => exact same

/-- Texts that are alike are the same as texts that are alike. -/
theorem Text.sameIgnoringCase_congr {left left' right right' : String}
    (lefts : Text.lower left = Text.lower left') (rights : Text.lower right = Text.lower right') :
    sameIgnoringCase left' right' = sameIgnoringCase left right := by
  rw [Bool.eq_iff_iff, sameIgnoringCase_iff_lower, sameIgnoringCase_iff_lower, lefts, rights]

theorem Statement.Like.findTable? (alike : Statement.Like ignoringCase s s') {name name' : String}
    (names : Text.lower name = Text.lower name') :
    (s'.findTable? name').isSome = (s.findTable? name).isSome := by
  rw [Statement.findTable?, Statement.findTable?, List.isSome_find?, List.isSome_find?]
  have tables := alike.tables
  revert tables
  generalize s.tables = tables
  generalize s'.tables = tables'
  intro tables
  induction tables with
  | nil => rfl
  | cons first _ ih =>
    rw [List.any_cons, List.any_cons, ih, Text.sameIgnoringCase_congr first.name names]

/-- The alias that a projection list gives for a column does not depend on the case of letters. -/
theorem Statement.Like.aliasOf? (alike : Statement.Like ignoringCase s s') {name name' : String}
    (names : Text.lower name = Text.lower name') :
    Option.Rel ignoringCase.text (s.aliasOf? name) (s'.aliasOf? name') := by
  unfold Statement.aliasOf?
  rw [alike.containsStar]
  by_cases star : s.containsStar = true
  · rw [if_pos star, if_pos star]
    exact .none
  rw [if_neg star, if_neg star]
  have bare : Text.lower (Text.stripQuotes name) = Text.lower (Text.stripQuotes name') :=
    stripQuotes_ignoringCase names
  have items := alike.items
  revert items
  generalize s.items = items
  generalize s'.items = items'
  intro items
  dsimp only
  induction items with
  | nil => exact .none
  | @cons item item' _ _ first _ ih =>
    have expression : Text.lower (Text.stripQuotes item.expression) =
        Text.lower (Text.stripQuotes item'.expression) :=
      stripQuotes_ignoringCase first.expression
    have given := first.aliasName
    rw [List.findSome?_cons, List.findSome?_cons, Text.sameIgnoringCase_congr expression bare]
    have aliased : item'.aliasName.any (Text.sameIgnoringCase · (Text.stripQuotes name')) =
        item.aliasName.any (Text.sameIgnoringCase · (Text.stripQuotes name)) := by
      generalize item.aliasName = found at given ⊢
      generalize item'.aliasName = found' at given ⊢
      cases given with
      | none => rfl
      | some same => exact Text.sameIgnoringCase_congr same bare
    rw [aliased]
    by_cases isColumn : Text.sameIgnoringCase (Text.stripQuotes item.expression)
      (Text.stripQuotes name) = true
    · rw [if_pos isColumn, if_pos isColumn]
      exact given
    rw [if_neg isColumn, if_neg isColumn]
    by_cases isAlias : item.aliasName.any (Text.sameIgnoringCase · (Text.stripQuotes name)) = true
    · rw [if_pos isAlias, if_pos isAlias]
      exact .some bare
    · rw [if_neg isAlias, if_neg isAlias]
      exact ih

instance : EditRelation ignoringCase (Statement.Like ignoringCase) where
  edits alike token written :=
    { alike with
      edits := List.rel_append alike.edits (.cons (.tableName token.span.start written) .nil) }

instance : HeadRelation ignoringCase (Statement.Like ignoringCase) where
  distinct alike := { alike with distinct := rfl }
  items alike same :=
    { alike with
      items := List.rel_append alike.items (.cons same .nil)
      containsStar := congrArg₂ (· || ·) alike.containsStar same.isStar_eq }
  projectionEnd alike ends := { alike with projectionEnd := ends }

instance : ClauseRelation ignoringCase (Option.Rel ignoringCase.text) (Statement.Like ignoringCase) where
  isEmpty_tables alike := by
    rw [Bool.eq_iff_iff, List.isEmpty_iff_length_eq_zero, List.isEmpty_iff_length_eq_zero,
      alike.tables.length_eq]
  withOwner alike owners := EditRelation.withOwner alike owners (alike.findTable? owners.value)
  aliasOf alike names := alike.aliasOf? names
  tables alike names aliases :=
    { alike with tables := List.rel_append alike.tables (.cons ⟨names, aliases⟩ .nil) }
  parameters alike counted := { alike with parameters := counted }
  groupKeys alike same := { alike with groupBy := List.rel_append alike.groupBy (.cons same .nil) }
  orderKeys alike same := { alike with orderBy := List.rel_append alike.orderBy (.cons same .nil) }
  limits alike same := { alike with limit := .some same }

end Records

section DerivedColumns

theorem aliased_ignoringCase {expression expression' aliasName aliasName' : String}
    (expressions : Text.lower expression = Text.lower expression')
    (aliases : Text.lower aliasName = Text.lower aliasName') :
    Text.lower (aliased expression aliasName) = Text.lower (aliased expression' aliasName') := by
  rw [aliased, aliased, Text.lower_append, Text.lower_append, expressions, aliases,
    ← Text.lower_append, ← Text.lower_append]

theorem Statement.Like.projectedAliases {s s' : Statement} (alike : Statement.Like ignoringCase s s') :
    s'.projectedAliases = s.projectedAliases := by
  have aliases : List.Forall₂ ignoringCase.text (s.items.filterMap Item.aliasName)
      (s'.items.filterMap Item.aliasName) :=
    List.rel_filterMap (fun _ _ same => same.aliasName) alike.items
  unfold Statement.projectedAliases
  generalize s.items.filterMap Item.aliasName = found at aliases ⊢
  generalize s'.items.filterMap Item.aliasName = found' at aliases ⊢
  induction aliases with
  | nil => rfl
  | cons first _ ih => rw [List.map_cons, List.map_cons, ih, Text.upper_of_lower first]

theorem Statement.Like.averageColumns {s s' : Statement} (alike : Statement.Like ignoringCase s s') :
    List.Forall₂ ignoringCase.quote s.averageColumns s'.averageColumns := by
  unfold Statement.averageColumns
  rw [alike.projectedAliases]
  refine List.rel_filterMap (fun column other same => ?_) (Item.averageParts_like alike.items 0)
  rw [same.aliasName]
  split
  · exact .none
  · refine .some (aliased_ignoringCase ?_ rfl)
    rw [DerivedColumn.expression, DerivedColumn.expression, same.function, Text.lower_append,
      Text.lower_append, same.argument]

/-- Keys that are alike get a derived alias both or neither, and need columns that are alike. -/
theorem ColumnKey.derive_like {key other : ColumnKey}
    (alike : ColumnKey.Like ignoringCase (Option.Rel ignoringCase.text) key other) (stem : String)
    (number : Nat) :
    ColumnKey.Like ignoringCase (Option.Rel ignoringCase.text) (key.derive stem number).1
        (other.derive stem number).1 ∧
      Option.Rel ignoringCase.quote (key.derive stem number).2 (other.derive stem number).2 := by
  have named := @ColumnKey.Like.qualifiedName ignoringCase _ _ _ _ alike
  obtain ⟨owner, name, direction, aliasName⟩ := key
  obtain ⟨owner', name', direction', aliasName'⟩ := other
  have given := alike.aliasName
  dsimp only at given
  cases given with
  | none =>
    exact ⟨⟨alike.owner, alike.name, alike.direction, .some rfl⟩,
      .some (aliased_ignoringCase named rfl)⟩
  | some same => exact ⟨alike, .none⟩

theorem forall₂_toList {α β : Type} {same : α → β → Prop} {found : Option α} {other : Option β}
    (alike : Option.Rel same found other) : List.Forall₂ same found.toList other.toList := by
  cases alike with
  | none => exact .nil
  | some same => exact .cons same .nil

theorem isSome_eq_of_rel {α β : Type} {same : α → β → Prop} {found : Option α} {other : Option β}
    (alike : Option.Rel same found other) : other.isSome = found.isSome := by
  cases alike <;> rfl

theorem ColumnKey.deriveAll_like {keys others : List ColumnKey}
    (alike : List.Forall₂ (ColumnKey.Like ignoringCase (Option.Rel ignoringCase.text)) keys others)
    (stem : String) (number : Nat) :
    List.Forall₂ (ColumnKey.Like ignoringCase (Option.Rel ignoringCase.text))
        (deriveAll stem number keys).1 (deriveAll stem number others).1 ∧
      List.Forall₂ ignoringCase.quote (deriveAll stem number keys).2
        (deriveAll stem number others).2 := by
  induction alike generalizing number with
  | nil => exact ⟨.nil, .nil⟩
  | cons first _ ih =>
    obtain ⟨keySame, added⟩ := derive_like first stem number
    rw [deriveAll, deriveAll]
    dsimp only
    rw [isSome_eq_of_rel added]
    obtain ⟨keysSame, columns⟩ := ih _
    exact ⟨.cons keySame keysSame, List.rel_append (forall₂_toList added) columns⟩

theorem OrderKey.deriveAll_like {keys others : List OrderKey}
    (alike : List.Forall₂ (OrderKey.Like ignoringCase (Option.Rel ignoringCase.text)) keys others)
    (stem : String) (number : Nat) :
    List.Forall₂ (OrderKey.Like ignoringCase (Option.Rel ignoringCase.text))
        (deriveAll stem number keys).1 (deriveAll stem number others).1 ∧
      List.Forall₂ ignoringCase.quote (deriveAll stem number keys).2
        (deriveAll stem number others).2 := by
  induction alike generalizing number with
  | nil => exact ⟨.nil, .nil⟩
  | cons first _ ih =>
    cases first with
    | position index direction =>
      obtain ⟨keysSame, columns⟩ := ih number
      exact ⟨.cons (.position index direction) keysSame, columns⟩
    | column first =>
      obtain ⟨keySame, added⟩ := ColumnKey.derive_like first stem number
      rw [deriveAll, deriveAll]
      dsimp only
      rw [isSome_eq_of_rel added]
      obtain ⟨keysSame, columns⟩ := ih _
      exact ⟨.cons (.column keySame) keysSame, List.rel_append (forall₂_toList added) columns⟩

/-- The derived columns do not depend on the case of letters. -/
theorem Statement.Like.withDerivedColumns {s s' : Statement}
    (alike : Statement.Like ignoringCase s s') :
    Statement.Like ignoringCase s.withDerivedColumns s'.withDerivedColumns := by
  have orders := OrderKey.deriveAll_like alike.orderBy "ORDER_BY_DERIVED_" 0
  have groups := ColumnKey.deriveAll_like alike.groupBy "GROUP_BY_DERIVED_" 0
  have items := Item.splitAverages_like alike.items 0
  -- What is added is alike; so it is empty in both statements or in none.
  have edited {columns columns' : List String}
      (added : List.Forall₂ ignoringCase.quote columns columns') :
      List.Forall₂ (Edit.Like ignoringCase)
        (if columns.isEmpty then s.edits else s.edits ++ [.projection s.projectionEnd columns])
        (if columns'.isEmpty then s'.edits
          else s'.edits ++ [.projection s'.projectionEnd columns']) := by
    cases added with
    | nil => exact alike.edits
    | cons first rest =>
      exact List.rel_append alike.edits
        (.cons (.projection alike.projectionEnd (.cons first rest)) .nil)
  have same := alike.containsStar
  unfold Statement.withDerivedColumns
  rw [same]
  by_cases star : s.containsStar = true
  · rw [if_pos star, if_pos star, if_pos star, if_pos star]
    have added := List.rel_append (List.rel_append alike.averageColumns .nil) .nil
    exact { alike with items, containsStar := rfl, edits := edited added }
  · rw [if_neg star, if_neg star, if_neg star, if_neg star]
    have added := List.rel_append (List.rel_append alike.averageColumns orders.2) groups.2
    exact { alike with
      items, orderBy := orders.1, groupBy := groups.1, containsStar := rfl, edits := edited added }

end DerivedColumns

namespace Statement

/-- Queries that are the same in lower case are analysed in the same way: both fail with the same error
at the same place, the tokens that were found differing in the case of letters at most, or both give
statements that differ in the case of letters in their texts at most. -/
theorem ofText_ignoringCase (dialect : Dialect) {text text' : String}
    (same : Text.lower text = Text.lower text') :
    SameOutcome (ParseError.Like ignoringCase) (Statement.Like ignoringCase) (ofText dialect text)
      (ofText dialect text') := by
  have agrees := @AnalysisStep.select_agrees ignoringCase _ (Like ignoringCase) _ _ _ _
    (fun _ _ alike => alike.withDerivedColumns) dialect
  have start : Analysis.Like ignoringCase (Like ignoringCase)
      { cursor := { text, rest := Token.list text } }
      { cursor := { text := text', rest := Token.list text' } } :=
    ⟨Cursor.like_ignoringCase same, ⟨rfl, .nil, .nil, .nil, .nil, rfl, rfl, rfl, .none, .nil⟩⟩
  have valid := Cursor.firstLexicalError?_like (Token.list_ignoringCase same)
  unfold ofText analyze Cursor.ofText
  dsimp only
  generalize Cursor.firstLexicalError? (Token.list text) = error at valid ⊢
  generalize Cursor.firstLexicalError? (Token.list text') = error' at valid ⊢
  cases valid with
  | some alike => exact .error alike
  | none =>
    obtain ⟨outcome, after⟩ := agrees.run start
    dsimp only
    unfold ofCursor
    generalize AnalysisStep.select dialect { cursor := { text, rest := Token.list text } } = ran
      at outcome after ⊢
    generalize AnalysisStep.select dialect { cursor := { text := text', rest := Token.list text' } } =
      ran' at outcome after ⊢
    obtain ⟨answer, state⟩ := ran
    obtain ⟨answer', state'⟩ := ran'
    cases outcome with
    | error alike => exact .error alike
    | ok => exact .ok after.statement

theorem ofText_small_letters :
    let text := "SELECT A.b AS X, AVG(C) FROM A WHERE X'AB' = 1e2 ORDER BY a.B FOR UPDATE"
    let text' := "select a.B as x, avg(c) from a where x'aB' = 1E2 order by A.b for update"
    Text.lower text = Text.lower text' ∧ ∃ statement other,
      ofText .mysql text = .ok statement ∧ ofText .mysql text' = .ok other ∧
      statement.orderBy = [.column ⟨some "a", "B", .ascending, some "X"⟩] ∧
      other.orderBy = [.column ⟨some "A", "b", .ascending, some "x"⟩] ∧
      Like ignoringCase statement other := by
  let text := "SELECT A.b AS X, AVG(C) FROM A WHERE X'AB' = 1e2 ORDER BY a.B FOR UPDATE"
  let text' := "select a.B as x, avg(c) from a where x'aB' = 1E2 order by A.b for update"
  obtain ⟨same, accepted, accepted'⟩ : Text.lower text = Text.lower text' ∧
      ofText .mysql text = .ok
        { items := [.plain "A.b" (some "X"),
            .aggregation ⟨.avg, "(C)", none, 2, [⟨.count, "(C)", "AVG_DERIVED_COUNT_0"⟩,
              ⟨.sum, "(C)", "AVG_DERIVED_SUM_0"⟩]⟩]
          tables := [⟨"A", none⟩]
          orderBy := [.column ⟨some "a", "B", .ascending, some "X"⟩]
          projectionEnd := 24
          edits := [.tableName 7 "A", .tableName 29 "A", .tableName 58 "a", .projection 24
            ["COUNT(C) AS AVG_DERIVED_COUNT_0", "SUM(C) AS AVG_DERIVED_SUM_0"]] } ∧
      ofText .mysql text' = .ok
        { items := [.plain "a.B" (some "x"),
            .aggregation ⟨.avg, "(c)", none, 2, [⟨.count, "(c)", "AVG_DERIVED_COUNT_0"⟩,
              ⟨.sum, "(c)", "AVG_DERIVED_SUM_0"⟩]⟩]
          tables := [⟨"a", none⟩]
          orderBy := [.column ⟨some "A", "b", .ascending, some "x"⟩]
          projectionEnd := 24
          edits := [.tableName 7 "a", .tableName 29 "a", .tableName 58 "A", .projection 24
            ["COUNT(c) AS AVG_DERIVED_COUNT_0", "SUM(c) AS AVG_DERIVED_SUM_0"]] } := by
    decide +kernel
  have outcome := ofText_ignoringCase .mysql same
  rw [accepted, accepted'] at outcome
  cases outcome with
  | ok alike => exact ⟨same, _, _, accepted, accepted', rfl, rfl, alike⟩

end Statement

end SelectRouting
