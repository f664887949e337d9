import SelectRouting.Proofs.EditPlacement
import SelectRouting.Proofs.QueryOwners

/-!
# Which names are tracked

A name before a point that is a table of the statement has an edit, unless it stands where no clause
reader looks (`Statement.references_tracked`). The other way round, a name is changed only when it
is a table of the `FROM` clause, or stands before a point in the text of an item, or as a table before
a point in a join condition or a later clause (`Statement.changes_of_routes`).
-/

namespace SelectRouting

namespace Token

/-- The token is the owner of a column: a name behind no point, with a point and a name or a star
behind it. -/
def References (tokens : List Token) (token : Token) : Prop :=
  ∃ front point column rest, tokens = front ++ token :: point :: column :: rest ∧
    token.kind.isIdentifier = true ∧ point.kind = .symbol .dot ∧
    (column.kind.isWritten = true ∨ column.kind = .symbol .star) ∧
    ∀ last ∈ front.getLast?, last.kind ≠ .symbol .dot

theorem mem_owners_append_right {first second : List Token} {token : Token}
    (member : token ∈ owners second) : token ∈ owners (first ++ second) := by
  induction first with
  | nil => exact member
  | cons _ _ ih => exact List.mem_append_right _ ih

theorem References.mem_owners {tokens : List Token} {token : Token}
    (references : References tokens token) : token ∈ owners tokens := by
  obtain ⟨front, point, column, rest, rfl, name, is, _, _⟩ := references
  refine mem_owners_append_right (List.mem_append_left _ ?_)
  simp [ownerBefore, name, is]

example : (owners (list "s.t.a = \"u\".b")).map lexeme = ["s", "t", "\"u\""] := by decide +kernel

end Token

namespace Statement

/-- Every owner of a column that is a table of the statement has an edit, unless it is passed
without being looked at or is the schema of a table. -/
theorem references_tracked {dialect : Dialect} (shipped : dialect ∈ Dialect.shipped)
    {text : String} {statement : Statement} (accepted : ofText dialect text = .ok statement) :
    ∃ query : Query, query.Describes dialect text statement ∧
      ∀ token, Token.References (Token.list text) token →
        token.namesTable statement.tables = true →
        token.edit ∈ statement.edits ∨ token ∈ query.schemas ∨ token ∈ query.unread := by
  obtain ⟨query, describes⟩ := exists_query (Dialect.isPlain_of_shipped shipped) accepted
  obtain ⟨insertions, edits, _⟩ := describes.edits
  refine ⟨query, describes, fun token references named => ?_⟩
  have lexed := Token.areLexed_list text
  have member := references.mem_owners
  rw [describes.tokens] at lexed member
  rw [describes.tables] at named
  refine (Query.mem_owners describes.fits lexed member named).imp_left fun anchor => ?_
  rw [edits]
  exact List.mem_append_left _ (List.mem_map_of_mem anchor)

/-- The owner in a condition has an edit. -/
theorem references_tracked_in_condition :
    let text := "SELECT a FROM t WHERE t.b"
    let owner : Token := ⟨.identifier "t", 22, "t"⟩
    Dialect.generic ∈ Dialect.shipped ∧ ∃ statement, ofText .generic text = .ok statement ∧
      owner.edit ∈ statement.edits ∧
      ∃ query : Query, query.Describes .generic text statement ∧
        ∀ token, Token.References (Token.list text) token →
          token.namesTable statement.tables = true →
          token.edit ∈ statement.edits ∨ token ∈ query.schemas ∨ token ∈ query.unread := by
  have shipped : Dialect.generic ∈ Dialect.shipped := by simp [Dialect.shipped]
  have accepted : ofText .generic "SELECT a FROM t WHERE t.b" = .ok
      { items := [.plain "a" none]
        tables := [⟨"t", none⟩]
        projectionEnd := 9
        edits := [.tableName 14 "t", .tableName 22 "t"] } := by
    decide +kernel
  exact ⟨shipped, _, accepted, by decide, references_tracked shipped accepted⟩

/-- The argument of an aggregate call is passed without being looked at, so its owner has no edit. -/
theorem call_argument_untracked :
    let text := "SELECT COUNT(t.a) FROM t"
    let owner : Token := ⟨.identifier "t", 13, "t"⟩
    ∃ statement, ofText .generic text = .ok statement ∧
      Token.References (Token.list text) owner ∧
      owner.namesTable statement.tables = true ∧ owner.edit ∉ statement.edits := by
  have accepted : ofText .generic "SELECT COUNT(t.a) FROM t" = .ok
      { items := [.aggregation ⟨.count, "(t.a)", none, 1, []⟩]
        tables := [⟨"t", none⟩]
        projectionEnd := 18
        edits := [.tableName 23 "t"] } := by
    decide +kernel
  refine ⟨_, accepted, ?_, by decide, by decide⟩
  refine ⟨(Token.list "SELECT COUNT(t.a) FROM t").take 3, ⟨.symbol .dot, 14, "."⟩,
    ⟨.identifier "a", 15, "a"⟩, (Token.list "SELECT COUNT(t.a) FROM t").drop 6, ?_⟩
  decide +kernel

end Statement

namespace Text

/-- The second text is the first one, which begins at `offset`, with parts of it changed. Which part
at which offset may become what is said by `changes`. -/
inductive Rewrites (changes : Nat → List Char → List Char → Prop) :
    (offset : Nat) → List Char → List Char → Prop where
  | kept {offset : Nat} {cs : List Char} : Rewrites changes offset cs cs
  | changed {offset : Nat} {front written new cs ds : List Char} :
      changes (offset + width front) written new →
        Rewrites changes (offset + width front + width written) cs ds →
          Rewrites changes offset (front ++ (written ++ cs)) (front ++ (new ++ ds))

/-- More text in front stays as it is. -/
theorem Rewrites.behind {changes : Nat → List Char → List Char → Prop} {offset : Nat}
    {front cs ds : List Char} (rewrites : Rewrites changes (offset + width front) cs ds) :
    Rewrites changes offset (front ++ cs) (front ++ ds) := by
  cases rewrites with
  | kept => exact .kept
  | changed change more =>
    rw [Nat.add_assoc offset, ← width_append] at change more
    rw [← List.append_assoc front, ← List.append_assoc front]
    exact .changed change more

end Text

/-- What an edit changes under the routes: a name becomes the table that it is routed to, and an
insertion puts new text in place of nothing. -/
inductive Edit.Changes (routes : Routes) : Edit → (offset : Nat) → (written new : List Char) → Prop
  | tableName {offset : Nat} {text new : String} :
      routes.get? (Text.stripQuotes text) = some new →
        Changes routes (.tableName offset text) offset text.toList new.toList
  | projection {offset : Nat} {columns : List String} :
      Changes routes (.projection offset columns) offset [] (insertion columns).toList

/-- Edits that are made under the routes change the text as each of them does. -/
theorem Edit.Makes.rewrites {routes : Routes} {changes : Nat → List Char → List Char → Prop}
    {offset : Nat} {source made : List Char} {edits : List Edit} {lookups : List String}
    (makes : Makes (fun _ => routes.get?) offset source edits made lookups)
    (within : ∀ edit ∈ edits, ∀ offset written new, Changes routes edit offset written new →
      changes offset written new) :
    Text.Rewrites changes offset source made := by
  induction makes with
  | kept => exact .kept
  | @tableName offset front source made text edits lookups _ ih =>
    have more := ih fun edit member => within edit (List.mem_cons_of_mem _ member)
    rw [← Text.width_toList] at more
    cases routed : routes.get? (Text.stripQuotes text) with
    | none => exact more.behind.behind
    | some new => exact .changed (within _ List.mem_cons_self _ _ _ (.tableName routed)) more
  | projection _ ih =>
    have more := ih fun edit member => within edit (List.mem_cons_of_mem _ member)
    exact .changed (within _ List.mem_cons_self _ _ _ .projection) more

/-- What the routes may change in the text of a query with this statement. -/
inductive Query.Changes (query : Query) (statement : Statement) (routes : Routes) :
    (offset : Nat) → (written new : List Char) → Prop
  /-- The name of a table of the `FROM` clause. -/
  | factor {token : Token} {table : Table} {new : String} :
      token ∈ query.factors → table ∈ statement.tables →
        table.name = Text.stripQuotes token.lexeme → routes.get? table.name = some new →
        Changes query statement routes token.start token.lexeme.toList new.toList
  /-- An owner in the text of an item of the projection list. -/
  | projected {token : Token} {new : String} :
      token ∈ query.projectedAnchors → Token.Qualifies query.tokens token →
        token.start < statement.projectionEnd →
        routes.get? (Text.stripQuotes token.lexeme) = some new →
        Changes query statement routes token.start token.lexeme.toList new.toList
  /-- An owner in a join condition or a later clause that is a table of the statement. -/
  | owner {token : Token} {new : String} :
      token ∈ query.conditions → Token.Qualifies query.tokens token →
        token.namesTable statement.tables = true →
        routes.get? (Text.stripQuotes token.lexeme) = some new →
        Changes query statement routes token.start token.lexeme.toList new.toList
  /-- The derived columns are put in where the projection list ends. -/
  | insertion {columns : List String} :
      .projection statement.projectionEnd columns ∈ statement.edits →
        Changes query statement routes statement.projectionEnd [] (Edit.insertion columns).toList

/-- The edit of an anchor changes what the routes may change. -/
theorem Query.Describes.changes_of_anchor {query : Query} {dialect : Dialect} {text : String}
    {statement : Statement} (describes : query.Describes dialect text statement) {routes : Routes}
    {token : Token} (anchor : token ∈ query.anchors) {offset : Nat} {written new : List Char}
    (change : token.edit.Changes routes offset written new) :
    query.Changes statement routes offset written new := by
  cases change with
  | tableName routed =>
    rcases anchor_cases describes.fits anchor with
      ⟨projected, qualifies⟩ | factor | ⟨conditional, named, qualifies⟩
    · refine .projected projected qualifies ?_ routed
      rw [describes.projectionEnd]
      exact Nat.lt_of_lt_of_le (describes.start_lt_stop projected) (describes.stop_le projected)
    · obtain ⟨table, member, name⟩ := Source.exists_table factor
      rw [← name] at routed
      rw [← Query.tables, ← describes.tables] at member
      exact .factor factor member name routed
    · rw [← describes.tables] at named
      exact .owner conditional qualifies named routed

namespace Statement

/-- What the routes change in an accepted query is the name of a table in its `FROM` clause, or it
stands before a point and is in the text of an item or, in a join condition or a later clause, a table
of the statement; and the derived columns are put in. -/
theorem changes_of_routes {dialect : Dialect} (shipped : dialect ∈ Dialect.shipped)
    {text : String} {statement : Statement} (accepted : ofText dialect text = .ok statement)
    (routes : Routes) :
    ∃ query : Query, query.Describes dialect text statement ∧
      Text.Rewrites (query.Changes statement routes) 0 text.toList
        (routes.shardQuery statement.edits text).toList := by
  obtain ⟨query, describes⟩ := exists_query (Dialect.isPlain_of_shipped shipped) accepted
  obtain ⟨insertions, edits, inserted⟩ := describes.edits
  obtain ⟨made, lookups, makes⟩ := describes.exists_makes (fun _ => routes.get?) inserted
  have perm := Query.Describes.perm_ascending query insertions
  rw [← edits] at perm
  obtain ⟨same, _, _⟩ :=
    Splicing.runWith_of_makes makes perm (describes.pairwise_ascending inserted)
  refine ⟨query, describes, ?_⟩
  rw [Routes.shardQuery, String.toList_ofList, Splicing.run, same]
  refine makes.rewrites fun edit member offset written new change => ?_
  rw [← perm.mem_iff] at member
  have own := member
  rw [edits] at member
  rcases List.mem_append.mp member with name | insertion
  · obtain ⟨token, anchor, rfl⟩ := List.mem_map.mp name
    exact describes.changes_of_anchor anchor change
  · rcases inserted with rfl | ⟨columns, rfl⟩
    · cases insertion
    · obtain rfl := List.mem_singleton.mp insertion
      rw [← describes.projectionEnd] at own change
      cases change with
      | projection => exact .insertion own

/-- A table and an owner of it are changed, and nothing else. -/
theorem changes_of_routes_of_owner :
    let text := "SELECT t.a FROM t"
    let routes := Routes.ofList [("t", "t_0")]
    Dialect.generic ∈ Dialect.shipped ∧ ∃ statement, ofText .generic text = .ok statement ∧
      routes.shardQuery statement.edits text = "SELECT t_0.a FROM t_0" ∧
      ∃ query : Query, query.Describes .generic text statement ∧
        Text.Rewrites (query.Changes statement routes) 0 text.toList
          (routes.shardQuery statement.edits text).toList := by
  have shipped : Dialect.generic ∈ Dialect.shipped := by simp [Dialect.shipped]
  have accepted : ofText .generic "SELECT t.a FROM t" = .ok
      { items := [.plain "t.a" none]
        tables := [⟨"t", none⟩]
        projectionEnd := 11
        edits := [.tableName 7 "t", .tableName 16 "t"] } := by
    decide +kernel
  exact ⟨shipped, _, accepted, by decide, changes_of_routes shipped accepted _⟩

/-- An owner in the projection list is changed although it is an alias and no table. -/
theorem projected_alias_changed :
    let text := "SELECT u.a FROM t u"
    let owner : Token := ⟨.identifier "u", 7, "u"⟩
    ∃ statement, ofText .generic text = .ok statement ∧ owner ∈ Token.list text ∧
      owner.namesTable statement.tables = false ∧ statement.tables = [⟨"t", some "u"⟩] ∧
      (Routes.ofList [("u", "x")]).shardQuery statement.edits text = "SELECT x.a FROM t u" := by
  have accepted : ofText .generic "SELECT u.a FROM t u" = .ok
      { items := [.plain "u.a" none]
        tables := [⟨"t", some "u"⟩]
        projectionEnd := 11
        edits := [.tableName 7 "u", .tableName 16 "t"] } := by
    decide +kernel
  exact ⟨_, accepted, by decide, by decide, rfl, by decide⟩

end Statement

end SelectRouting
