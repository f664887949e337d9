import SelectRouting.Proofs.QueryAnchors
import SelectRouting.Proofs.QueryPassage
import SelectRouting.Proofs.Spliced

/-!
# Where the edits of a statement stand

The edits of a statement stand at tokens of its query, each at another one, and the insertion stands
where the projection list ends.
-/

namespace SelectRouting

namespace Token
open Edit Text

variable {mapper : Mapper} {offset size : Nat} {cs : List Char} {tokens behind names : List Token}
  {edits : List Edit}

/-- Edits of tokens stand one behind the other, when what follows them does. -/
theorem exists_makes_append (tiles : Tiles offset cs (tokens ++ behind))
    (among : names.Sublist tokens) (ends : offset + width cs = size)
    (more : ∀ {offset : Nat} {cs : List Char}, Tiles offset cs behind → offset + width cs = size →
      ∃ made lookups, Makes mapper offset cs edits made lookups) :
    ∃ made lookups, Makes mapper offset cs (names.map edit ++ edits) made lookups := by
  induction tokens generalizing offset cs names with
  | nil =>
    obtain rfl := List.sublist_nil.mp among
    exact more tiles ends
  | cons token tokens ih =>
    obtain ⟨gap, rest, rfl, start, _, later⟩ := tiles.uncons
    have left : token.span.stop + width rest = size := by
      rw [span_stop, start, ← ends]
      simp [Nat.add_assoc]
    cases among with
    | cons _ among =>
      obtain ⟨made, lookups, makes⟩ := ih later among left
      rw [span_stop, start, ← width_toList] at makes
      exact ⟨_, _, makes.behind.behind⟩
    | cons_cons _ among =>
      obtain ⟨made, lookups, makes⟩ := ih later among left
      rw [span_stop, start] at makes
      rw [List.map_cons, edit, start]
      exact ⟨_, _, .tableName makes⟩

/-- Edits of tokens stand one behind the other. -/
theorem exists_makes (tiles : Tiles offset cs tokens) (among : names.Sublist tokens) :
    ∃ made lookups, Makes mapper offset cs (names.map edit) made lookups := by
  have whole : Tiles offset cs (tokens ++ []) := by simpa using tiles
  obtain ⟨made, lookups, makes⟩ :=
    exists_makes_append whole among rfl fun {_ source} _ _ => ⟨source, [], .kept⟩
  exact ⟨made, lookups, by simpa using makes⟩

/-- An insertion before the first token stands before the edits of tokens. -/
theorem exists_makes_insertion (tiles : Tiles offset cs behind) (among : names.Sublist behind)
    (ends : offset + width cs = size) (columns : List String) :
    ∃ made lookups, Makes mapper offset cs
      (.projection (frontStart size behind) columns :: names.map edit) made lookups := by
  cases behind with
  | nil =>
    obtain rfl := List.sublist_nil.mp among
    subst ends
    have makes := @Makes.projection mapper offset cs [] [] columns [] [] .kept
    rw [List.append_nil] at makes
    exact ⟨_, _, makes⟩
  | cons token behind =>
    obtain ⟨gap, rest, rfl, start, here, _⟩ := tiles.uncons
    obtain ⟨made, lookups, makes⟩ := exists_makes here among
    rw [start] at makes
    rw [frontStart, start]
    exact ⟨_, _, .projection makes⟩

/-- Tokens end before those behind them begin, or before the end of the text. -/
theorem stop_le_frontStart {text : String} {first behind : List Token} {token : Token}
    (are : list text = first ++ behind) (member : token ∈ first) :
    token.span.stop ≤ frontStart text.utf8ByteSize behind := by
  have tiles := tiles_list text
  rw [are] at tiles
  cases behind with
  | nil =>
    obtain ⟨before, after, split, start⟩ := tiles.within token (List.mem_append_left _ member)
    rw [frontStart, ← width_toList, split, span_stop, start]
    simp
  | cons next rest =>
    have ordered := tiles.pairwise
    rw [List.pairwise_append] at ordered
    exact ordered.2.2 token member next List.mem_cons_self

end Token

/-- A cursor in the tokens of a text stands at one of them, or at the end of the input. -/
theorem Cursor.current_mem_tokenize {cursor : Cursor} {text : String} (same : cursor.text = text)
    (left : cursor.rest <:+ Token.list text) : cursor.current ∈ Token.tokenize text := by
  cases tokens : cursor.rest with
  | nil =>
    have current : cursor.current = Token.eof text.utf8ByteSize := by
      simp [Cursor.current, Cursor.peek, tokens, same]
    rw [current]
    exact List.mem_append_right _ (List.mem_singleton_self _)
  | cons token rest =>
    have current : cursor.current = token := by simp [Cursor.current, Cursor.peek, tokens]
    rw [tokens] at left
    rw [current]
    exact List.mem_append_left _ (left.subset List.mem_cons_self)

namespace Statement

/-- The derived columns are added by one insertion behind the other edits, if there are any. -/
theorem edits_withDerivedColumns (parsed : Statement) :
    ∃ insertions, parsed.withDerivedColumns.edits = parsed.edits ++ insertions ∧
      (insertions = [] ∨ ∃ columns, insertions = [.projection parsed.projectionEnd columns]) := by
  have added (columns : List String) : ∃ insertions,
      (if columns.isEmpty then parsed.edits
        else parsed.edits ++ [.projection parsed.projectionEnd columns]) =
          parsed.edits ++ insertions ∧
        (insertions = [] ∨ ∃ columns, insertions = [.projection parsed.projectionEnd columns]) := by
    split
    · exact ⟨[], (List.append_nil _).symm, .inl rfl⟩
    · exact ⟨_, rfl, .inr ⟨_, rfl⟩⟩
  unfold withDerivedColumns
  dsimp only
  split
  · exact added _
  · exact added _

end Statement

namespace Query.Describes
open Token (frontStart)

variable {query : Query} {dialect : Dialect} {text : String} {statement : Statement}
  {token : Token}

theorem tables (describes : query.Describes dialect text statement) :
    statement.tables = query.tables := by
  obtain ⟨parsed, rfl, _, tables, _⟩ := describes.derived
  exact tables

theorem projectionEnd (describes : query.Describes dialect text statement) :
    statement.projectionEnd = frontStart text.utf8ByteSize query.behind := by
  obtain ⟨parsed, rfl, _, _, stop, _⟩ := describes.derived
  exact stop

/-- The edits are those of the anchors, and the insertion where the projection list ends. -/
theorem edits (describes : query.Describes dialect text statement) :
    ∃ insertions, statement.edits = query.anchors.map Token.edit ++ insertions ∧
      (insertions = [] ∨ ∃ columns,
        insertions = [.projection (frontStart text.utf8ByteSize query.behind) columns]) := by
  obtain ⟨parsed, rfl, edits, _, stop, _⟩ := describes.derived
  rw [← edits, ← stop]
  exact parsed.edits_withDerivedColumns

/-- The anchors in the projection list end before it does. -/
theorem stop_le (describes : query.Describes dialect text statement)
    (projected : token ∈ query.projectedAnchors) :
    token.span.stop ≤ frontStart text.utf8ByteSize query.behind :=
  Token.stop_le_frontStart describes.tokens
    (List.mem_append_right _ (query.projectedAnchors_sublist.mem projected))

/-- The anchors behind the projection list start behind the token that ends it. -/
theorem lt_start (describes : query.Describes dialect text statement)
    (later : token ∈ query.laterAnchors) :
    frontStart text.utf8ByteSize query.behind < token.start := by
  have member := (laterAnchors_sublist describes.fits).mem later
  have ordered := Token.pairwise_start_lt text
  rw [describes.tokens, Query.tokens, List.pairwise_append] at ordered
  cases behind : query.behind with
  | nil =>
    rw [behind] at member
    cases member
  | cons first rest =>
    rw [behind] at member ordered
    exact (List.pairwise_cons.mp ordered.2.1).1 token member

/-- The anchors stand in the order of the text. -/
theorem anchors_pairwise (describes : query.Describes dialect text statement) :
    query.anchors.Pairwise fun first second => first.start < second.start := by
  have ordered := Token.pairwise_start_lt text
  rw [describes.tokens] at ordered
  exact ordered.sublist (anchors_sublist describes.fits)

theorem start_lt_stop (describes : query.Describes dialect text statement)
    (projected : token ∈ query.projectedAnchors) : token.start < token.span.stop := by
  have member := (anchors_sublist describes.fits).mem (List.mem_append_left _ projected)
  rw [← describes.tokens] at member
  exact (Token.areLexed_list text token member).start_lt_stop

/-- The edits in the order of the text: the insertion stands between those of the anchors. -/
def ascending (query : Query) (insertions : List Edit) : List Edit :=
  query.projectedAnchors.map Token.edit ++ (insertions ++ query.laterAnchors.map Token.edit)

theorem perm_ascending (query : Query) (insertions : List Edit) :
    (query.anchors.map Token.edit ++ insertions).Perm (ascending query insertions) := by
  rw [ascending, anchors, List.map_append, List.append_assoc]
  exact List.perm_append_comm.append_left _

theorem lookups_ascending {insertions : List Edit}
    (inserted : insertions = [] ∨ ∃ offset columns, insertions = [.projection offset columns]) :
    (ascending query insertions).filterMap Edit.lookup? =
      query.anchors.map fun token => Text.stripQuotes token.lexeme := by
  have none : insertions.filterMap Edit.lookup? = [] := by
    rcases inserted with rfl | ⟨offset, columns, rfl⟩ <;> rfl
  have names (tokens : List Token) : (tokens.map Token.edit).filterMap Edit.lookup? =
      tokens.map fun token => Text.stripQuotes token.lexeme := by
    rw [List.filterMap_map, ← List.filterMap_eq_map]
    rfl
  simp only [ascending, anchors, List.filterMap_append, List.map_append, names, none,
    List.nil_append]

/-- Each edit stands at another offset. -/
theorem pairwise_ascending (describes : query.Describes dialect text statement)
    {insertions : List Edit} (inserted : insertions = [] ∨ ∃ columns,
      insertions = [.projection (frontStart text.utf8ByteSize query.behind) columns]) :
    (ascending query insertions).Pairwise fun first second => first.offset < second.offset := by
  have ordered := describes.anchors_pairwise
  rcases inserted with rfl | ⟨columns, rfl⟩
  · rw [ascending, List.nil_append, ← List.map_append, List.pairwise_map]
    exact ordered
  · rw [anchors, List.pairwise_append] at ordered
    rw [ascending, List.pairwise_append]
    refine ⟨List.pairwise_map.mpr ordered.1, .cons ?_ (List.pairwise_map.mpr ordered.2.1), ?_⟩
    · intro second member
      obtain ⟨token, later, rfl⟩ := List.mem_map.mp member
      exact describes.lt_start later
    · intro first member second others
      obtain ⟨token, projected, rfl⟩ := List.mem_map.mp member
      rcases List.mem_cons.mp others with rfl | later
      · exact Nat.lt_of_lt_of_le (describes.start_lt_stop projected) (describes.stop_le projected)
      · obtain ⟨other, inLater, rfl⟩ := List.mem_map.mp later
        exact ordered.2.2 token projected other inLater

/-- The edits of a statement stand one behind the other in its text. -/
theorem exists_makes (describes : query.Describes dialect text statement) (mapper : Mapper)
    {insertions : List Edit} (inserted : insertions = [] ∨ ∃ columns,
      insertions = [.projection (frontStart text.utf8ByteSize query.behind) columns]) :
    ∃ made lookups,
      Edit.Makes mapper 0 text.toList (ascending query insertions) made lookups := by
  have tiles := Token.tiles_list text
  rw [describes.tokens, Query.tokens] at tiles
  have projected : query.projectedAnchors.Sublist
      (query.opening ++ query.distinctOn ++ query.projection) :=
    query.projectedAnchors_sublist.trans (List.sublist_append_right _ _)
  have later : query.laterAnchors.Sublist query.behind :=
    (laterAnchors_sublist describes.fits).trans (List.tail_sublist _)
  have ends : 0 + Text.width text.toList = text.utf8ByteSize := by simp
  refine Token.exists_makes_append tiles projected ends fun more left => ?_
  rcases inserted with rfl | ⟨columns, rfl⟩
  · exact Token.exists_makes more later
  · exact Token.exists_makes_insertion more later left columns

end Query.Describes

/-- The edits of the statement are the table names at the tokens `names` and behind them at most one
insertion, at the token where the reader is behind the projection list. All of them are made, and
each name is looked up once, the last one first. -/
structure Statement.EditsPlaced (statement : Statement) (dialect : Dialect) (text : String)
    (names : List Token) (insertions : List Edit) : Prop where
  edits : statement.edits = names.map Token.edit ++ insertions
  tokens : ∀ name ∈ names, name ∈ Token.list text
  ascending : names.Pairwise fun first second => first.start < second.start
  insertion : insertions = [] ∨ ∃ cursor behindHead columns,
    Cursor.ofText text = .ok cursor ∧
      Step.Yields (AnalysisStep.head dialect) { cursor } () behindHead ∧
      behindHead.cursor.current ∈ Token.tokenize text ∧
      insertions = [.projection behindHead.cursor.start columns] ∧
      ∀ name ∈ names, name.span.stop ≤ behindHead.cursor.start ∨
        behindHead.cursor.start < name.start
  warnings (mapper : Mapper) : (Splicing.runWith statement.edits mapper text).warnings = []
  lookups (mapper : Mapper) : (Splicing.runWith statement.edits mapper text).lookups =
    (names.map fun name => Text.stripQuotes name.lexeme).reverse

namespace Query.Describes
variable {query : Query} {dialect : Dialect} {text : String} {statement : Statement}

/-- The insertion stands where the reader is behind the projection list. -/
theorem insertion_placed (describes : query.Describes dialect text statement) (columns : List String) :
    ∃ behindHead,
      Step.Yields (AnalysisStep.head dialect) { cursor := { text, rest := Token.list text } } ()
        behindHead ∧
      behindHead.cursor.current ∈ Token.tokenize text ∧
      Edit.projection (Token.frontStart text.utf8ByteSize query.behind) columns =
        .projection behindHead.cursor.start columns ∧
      ∀ name ∈ query.anchors, name.span.stop ≤ behindHead.cursor.start ∨
        behindHead.cursor.start < name.start := by
  obtain ⟨behindHead, head, same, rest⟩ := describes.head
  have start : behindHead.cursor.start = Token.frontStart text.utf8ByteSize query.behind := by
    rw [Cursor.start_eq_frontStart, same, rest]
  refine ⟨behindHead, head, ?_, by rw [start], ?_⟩
  · refine Cursor.current_mem_tokenize same ?_
    rw [rest, describes.tokens]
    exact List.suffix_append _ _
  · intro name member
    rw [start]
    exact (List.mem_append.mp member).imp describes.stop_le describes.lt_start

/-- Every edit is made, whatever the names are mapped to. -/
theorem runWith_edits (describes : query.Describes dialect text statement) (mapper : Mapper) :
    (Splicing.runWith statement.edits mapper text).warnings = [] ∧
      (Splicing.runWith statement.edits mapper text).lookups =
        (query.anchors.map fun name => Text.stripQuotes name.lexeme).reverse := by
  obtain ⟨insertions, edits, inserted⟩ := describes.edits
  obtain ⟨made, lookups, makes⟩ := describes.exists_makes mapper inserted
  have perm := perm_ascending query insertions
  rw [← edits] at perm
  obtain ⟨_, looked, warnings⟩ :=
    Splicing.runWith_of_makes makes perm (describes.pairwise_ascending inserted)
  refine ⟨warnings, ?_⟩
  rw [looked, makes.lookups_eq, lookups_ascending]
  exact inserted.imp_right fun ⟨columns, one⟩ => ⟨_, columns, one⟩

end Query.Describes

/-- The edits of an accepted query are well placed. -/
theorem Statement.edits_placed {dialect : Dialect} (shipped : dialect ∈ Dialect.shipped)
    {text : String} {statement : Statement} (accepted : ofText dialect text = .ok statement) :
    ∃ names insertions, statement.EditsPlaced dialect text names insertions := by
  obtain ⟨query, describes⟩ := exists_query (Dialect.isPlain_of_shipped shipped) accepted
  obtain ⟨insertions, edits, inserted⟩ := describes.edits
  refine ⟨query.anchors, insertions, edits, ?_, describes.anchors_pairwise, ?_,
    fun mapper => (describes.runWith_edits mapper).1, fun mapper => (describes.runWith_edits mapper).2⟩
  · intro name member
    rw [describes.tokens]
    exact (Query.anchors_sublist describes.fits).mem member
  · rcases inserted with none | ⟨columns, one⟩
    · exact .inl none
    · obtain ⟨behindHead, head, current, placed, apart⟩ := describes.insertion_placed columns
      exact .inr ⟨_, behindHead, columns, (ofText_ok accepted).1, head, current,
        by rw [one, placed], apart⟩

/-- A key that is not projected gives an insertion between two table names. -/
theorem Statement.edits_placed_of_key :
    Dialect.generic ∈ Dialect.shipped ∧ ∃ statement : Statement,
      ofText .generic "SELECT t.a FROM t ORDER BY c" = .ok statement ∧
      statement.edits = [.tableName 7 "t", .tableName 16 "t",
        .projection 11 ["c AS ORDER_BY_DERIVED_0"]] ∧
      ∃ names insertions,
        statement.EditsPlaced .generic "SELECT t.a FROM t ORDER BY c" names insertions := by
  have shipped : Dialect.generic ∈ Dialect.shipped := by simp [Dialect.shipped]
  have accepted : ofText .generic "SELECT t.a FROM t ORDER BY c" = .ok
      { items := [.plain "t.a" none]
        tables := [⟨"t", none⟩]
        orderBy := [.column ⟨none, "c", .ascending, some "ORDER_BY_DERIVED_0"⟩]
        projectionEnd := 11
        edits := [.tableName 7 "t", .tableName 16 "t",
          .projection 11 ["c AS ORDER_BY_DERIVED_0"]] } := by
    decide +kernel
  exact ⟨shipped, _, accepted, rfl, edits_placed shipped accepted⟩

end SelectRouting
