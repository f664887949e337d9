import Mathlib.Data.List.Basic
import SelectRouting.Proofs.AddedItems
import SelectRouting.Proofs.Grafted
import SelectRouting.Proofs.Mirroring
import SelectRouting.Proofs.QueryOwners
import SelectRouting.Proofs.ShardTokens

/-!
# The analysis of the query for a shard

The query for a shard is a query again. Where the columns that are added need no quotes, its analysis
finds the items of the query it was made from and, behind them, the added columns as items; the
tables, the keys and the row limit are the same (`Statement.shardQuery_accepted`).
-/

namespace SelectRouting

/-- What a span quotes of the front that two texts share is the same. -/
theorem Span.slice_eq_of_front {span : Span} {text other : String} {front cs ds : List Char}
    (one : text.toList = front ++ cs) (two : other.toList = front ++ ds)
    (within : span.stop ≤ Text.width front) : span.slice other = span.slice text := by
  rw [slice, slice, one, two, Text.slice?_append_front within, Text.slice?_append_front within]

namespace Item

/-- The item without the parts of its average. -/
def bare : Item → Item
  | .aggregation call => .aggregation { call with derived := [] }
  | item => item

/-- The text that adds the item to a projection list, if the item has an alias. -/
def fragment? (item : Item) : Option String :=
  item.aliasName.map (aliased item.expression)

theorem map_bare_splitAverages (before : Nat) (items : List Item) :
    (splitAverages before items).map bare = items.map bare := by
  induction items generalizing before with
  | nil => rfl
  | cons item items ih =>
    rw [splitAverages, List.map_cons, ih, List.map_cons]
    refine congrArg (· :: _) ?_
    unfold splitAverage
    split
    · split <;> rfl
    · rfl

end Item

namespace AddedColumn

theorem map_bare_items (position : Nat) (columns : List AddedColumn) :
    (items position columns).map Item.bare = items position columns := by
  induction columns generalizing position with
  | nil => rfl
  | cons column columns ih =>
    rw [items, List.map_cons, ih]
    cases column <;> rfl

/-- The items that columns become are added by the texts of the columns. -/
theorem map_fragment_items (position : Nat) (columns : List AddedColumn) :
    (items position columns).map Item.fragment? = columns.map fun column => some column.text := by
  induction columns generalizing position with
  | nil => rfl
  | cons column columns ih =>
    rw [items, List.map_cons, ih, List.map_cons]
    cases column <;> rfl

example : (items 1 [.part ⟨.sum, "(a)", "AVG_DERIVED_SUM_0"⟩,
    .key ⟨some "t", "b"⟩ "ORDER_BY_DERIVED_0"]).map Item.fragment? =
      [some "SUM(a) AS AVG_DERIVED_SUM_0", some "t.b AS ORDER_BY_DERIVED_0"] := by
  decide +kernel

end AddedColumn

/-- A cursor is opened on a text whose tokens are all valid. -/
theorem Cursor.ofText_of_valid {text : String}
    (valid : ∀ token ∈ Token.list text, ∀ error, token.kind ≠ .invalid error) :
    ofText text = .ok { text, rest := Token.list text } := by
  have none : firstLexicalError? (Token.list text) = none := by
    refine List.findSome?_eq_none_iff.mpr fun token member => ?_
    split
    · next error is => exact absurd is (valid token member error)
    · rfl
  rw [ofText, none]

/-- A run of the reader over the tokens of a text accepts it. -/
theorem Statement.ofText_of_yields {dialect : Dialect} {text : String} {after : Analysis}
    (valid : ∀ token ∈ Token.list text, ∀ error, token.kind ≠ .invalid error)
    (answers : Step.Yields (AnalysisStep.select dialect)
      { cursor := { text, rest := Token.list text } } () after) :
    ofText dialect text = .ok after.statement := by
  have ran : AnalysisStep.select dialect { cursor := { text, rest := Token.list text } } =
    (.ok (), after) := answers
  rw [ofText, analyze, Cursor.ofText_of_valid valid]
  dsimp only
  rw [ofCursor, ran]
  rfl

namespace AnalysisStep
open Step

/-- No comma stands behind the projection list. -/
theorem itemRounds_end {dialect : Dialect} {position : Nat} {before after : Analysis} {answer : Unit}
    (ran : Rounds (itemRound dialect) position before answer after) :
    after.cursor.kind ≠ .symbol .comma := by
  induction ran with
  | done answers =>
    obtain ⟨_, _, _, ⟨ends, _, rfl⟩ | ⟨_, next, _⟩⟩ := yields_itemRound.mp answers
    · exact ends
    · cases next
  | next _ _ ih => exact ih

theorem head_end {dialect : Dialect} {before after : Analysis} {answer : Unit}
    (answers : Yields (head dialect) before answer after) : after.cursor.kind ≠ .symbol .comma := by
  obtain ⟨_, _, _, last, _, _, _, ran, rfl⟩ := head_cases answers
  have noComma := itemRounds_end ran
  exact noComma

end AnalysisStep

namespace Query.Describes
open Token Text Step AnalysisStep

variable {query : Query} {dialect : Dialect} {text shard : String} {statement : Statement}
  {front gap behind last : List Char}

/-- The query for a shard begins as the query does, and where the projection list ends, it goes on with
the added columns. -/
theorem exists_graft (describes : query.Describes dialect text statement)
    (valid : ∀ token ∈ list text, ∀ error, token.kind ≠ .invalid error)
    (readable : ∀ column ∈ statement.addedColumns, column.IsReadable)
    (made : ShardText query statement (fun _ => none) text shard front gap behind last front behind)
    (some : statement.addedColumns ≠ []) : ∃ (graft : Graft) (inserted more : List Token),
      graft.grown = shard ∧ graft.behind = query.behind ∧ graft.others = inserted ++ more ∧
      AddedColumn.AllPlaced shard statement.addedColumns inserted ∧
      more.map content = query.behind.map content ∧
      graft.Pairs query.front { cursor := { text, rest := list text } }
        { cursor := { text := shard, rest := list shard } } := by
  have whole := describes.tokens_eq
  have lexed := areLexed_list text
  rw [whole] at lexed valid
  have breaks : ∀ d ∈ ((Edit.insertion (statement.addedColumns.map AddedColumn.text)).toList ++
      (behind ++ last)).head?, isBreak d = true := by
    obtain ⟨column, columns, are⟩ := List.exists_cons_of_ne_nil some
    rw [AddedColumn.toList_insertion, are]
    simp
    decide
  have reads := (made.parts.spellsFront.again
    (fun token member => valid token (List.mem_append_left _ member))
    fun _ => .behind_gap made.parts.endsGap (by simp) fun _ => .of_break breaks).1
  obtain ⟨inserted, own, placed⟩ := @AddedColumn.exists_allPlaced shard (front ++ gap)
    (' ' :: (behind ++ last)) _ readable
    (by rw [made.shard, AddedColumn.toList_insertion]; simp) (by simp; decide)
  obtain ⟨more, readsBehind, same⟩ := made.parts.spellsBehind.moved (width (front ++ gap) +
    width ((statement.addedColumns.map AddedColumn.text).flatMap
      fun column => ',' :: ' ' :: column.toList) + ' '.utf8Size)
  exact ⟨{ text
           grown := shard
           limit := width front
           behind := query.behind
           others := inserted ++ more
           noPoint := Query.frontKind_behind_ne (.inl rfl) describes.fits describes.fits.closing lexed.right
           comma := placed.frontKind some more
           quotes := fun _ within => Span.slice_eq_of_front made.parts.split made.shard within },
    inserted, more, rfl, rfl, rfl, placed, same,
    ⟨⟨rfl, rfl, whole, made.tokens some reads.listFrom_append own
      readsBehind.listFrom_append, rfl, rfl, Nat.zero_le _, fun token member =>
      ⟨(lexed.left token member).kind_ne_endOfInput, by
        simpa using made.parts.spellsFront.stop_le token member⟩⟩, rfl⟩⟩

/-- Where no name is routed, the columns are added and nothing else is changed. -/
theorem exists_added (describes : query.Describes dialect text statement)
    (valid : ∀ token ∈ list text, ∀ error, token.kind ≠ .invalid error)
    (closed : statement.projectionEnd = text.utf8ByteSize → EndsClosed text)
    (some : statement.addedColumns ≠ []) : ∃ front gap behind last,
      ShardText query statement (fun _ => none) text (({} : Routes).shardQuery statement.edits text)
        front gap behind last front behind := by
  have parted : (list text).IsChain (Parted ({} : Routes).get? statement.edited) :=
    List.Pairwise.isChain (List.pairwise_of_forall fun first second _ => by
      simp [isRouted, Routes.get?])
  obtain ⟨front, gap, behind, last, front', behind', made⟩ :=
    describes.exists_shardText valid (fun _ _ found => by cases found) parted closed some
  obtain rfl := made.madeFront.same
  obtain rfl := made.madeBehind.same
  exact ⟨_, gap, _, last, made⟩

/-- The items of a query are those of its projection list, with their averages split. -/
theorem items_of_head (describes : query.Describes dialect text statement) {middle : Analysis}
    (head : Yields (AnalysisStep.head dialect) { cursor := { text, rest := list text } } () middle) :
    statement.items.map Item.bare = middle.statement.items.map Item.bare ∧
      statement.containsStar = middle.statement.containsStar := by
  obtain ⟨parsed, rfl, _, _, _, other, head', resolves⟩ := describes.derived
  obtain ⟨_, rfl⟩ := head'.unique head
  rw [← resolves.items, ← resolves.containsStar]
  exact ⟨Item.map_bare_splitAverages 0 parsed.items, rfl⟩

/-- Where no name is routed and no column is added, nothing is changed. -/
theorem shardQuery_of_none (describes : query.Describes dialect text statement)
    (none : statement.addedColumns = []) :
    ({} : Routes).shardQuery statement.edits text = text := by
  have edits := describes.edits_eq
  rw [Statement.insertions, if_pos none] at edits
  obtain ⟨made, lookups, makes⟩ := describes.exists_makes (fun _ => ({} : Routes).get?) (.inl rfl)
  have perm := perm_ascending query []
  rw [← edits] at perm
  obtain ⟨same, _⟩ :=
    Splicing.runWith_of_makes makes perm (describes.pairwise_ascending (.inl rfl))
  have unchanged := makes.same fun edit member => by
    rw [ascending, List.nil_append, ← List.map_append] at member
    obtain ⟨token, _, rfl⟩ := List.mem_map.mp member
    exact ⟨_, _, rfl⟩
  rw [Routes.shardQuery, Splicing.run, same, unchanged, String.ofList_toList]

/-- The query for a shard with added columns is accepted. -/
theorem exists_again_of_added (describes : query.Describes dialect text statement) (plain : dialect.IsPlain)
    (accepted : Statement.ofText dialect text = .ok statement)
    (unquoted : ∀ column aliasName, .key column aliasName ∈ statement.addedKeys → column.IsItem)
    (closed : statement.projectionEnd = text.utf8ByteSize → EndsClosed text)
    (some : statement.addedColumns ≠ []) : ∃ again,
      Statement.ofText dialect (({} : Routes).shardQuery statement.edits text) = .ok again ∧
      again.items.map Item.bare = statement.items.map Item.bare ++
        AddedColumn.items (statement.items.length + 1) statement.addedColumns ∧
      again.containsStar = statement.containsStar ∧ statement.Alike again := by
  obtain ⟨opened, after, answers, rfl⟩ := Statement.ofText_ok accepted
  have valid := Cursor.valid_of_ofText opened
  have readable := describes.isReadable plain valid fun column aliasName added =>
    (unquoted column aliasName added).toIsPlain
  have isItem (column : Column) (aliasName : String)
      (added : .key column aliasName ∈ after.statement.addedColumns) : column.IsItem :=
    unquoted column aliasName (Statement.key_mem_addedColumns.mp added)
  obtain ⟨front, gap, behind, last, made⟩ := describes.exists_added valid closed some
  generalize ({} : Routes).shardQuery after.statement.edits text = shard at made ⊢
  obtain ⟨graft, inserted, more, grown, behindIs, others, placed, same, pairs⟩ :=
    describes.exists_graft valid readable made some
  -- the list is read as before, and behind it the added columns
  obtain ⟨middle, head, _, upTo⟩ := describes.head
  obtain ⟨between, _, joins, found, _, later⟩ :=
    pairs.head plain.itemWord rfl head (upTo.trans behindIs.symm)
  obtain ⟨cursor, inList, stands⟩ := Cursor.exists_passes (joins.others.trans others)
  have ends : cursor.kind ≠ .symbol .comma := by
    rw [Cursor.kind_eq_frontKind, stands, frontKind_of_content same, ← upTo,
      ← Cursor.kind_eq_frontKind]
    exact head_end head
  obtain ⟨own, ownStar⟩ := describes.items_of_head head
  have size : after.statement.items.length = middle.statement.items.length := by
    simpa using congrArg List.length own
  obtain ⟨reached, edits, rfl, ran, items⟩ := placed.itemRounds plain.itemWord readable isItem some
    (joins.grown.trans grown) inList ends
  have head' := later ran
  -- what is behind the list is read in the same way
  obtain ⟨_, start, mirrored⟩ := (selectRun_of_yields answers).mirrored
  obtain ⟨_, rfl⟩ := start.unique head
  obtain ⟨after', answers', alike⟩ := mirrored head'
    ⟨by rw [Cursor.Alike, upTo]; exact (congrArg _ stands).trans same,
      by rw [found, items]; exact ⟨rfl, rfl, rfl, rfl, rfl⟩⟩
  have validAgain : ∀ token ∈ list shard, ∀ error, token.kind ≠ .invalid error := by
    have whole : list shard = query.front ++ (inserted ++ more) := pairs.cursor.others.trans (by rw [others])
    rw [describes.tokens_eq] at valid
    intro token member
    rw [whole, List.mem_append, List.mem_append] at member
    rcases member with before | own | behind
    · exact valid token (List.mem_append_left _ before)
    · exact placed.valid readable token own
    · exact valid_of_content (fun token member => valid token (List.mem_append_right _ member)) same
        token behind
  have acceptedAgain := Statement.ofText_of_yields validAgain answers'
  obtain ⟨_, describesAgain⟩ := Statement.exists_query plain acceptedAgain
  obtain ⟨againItems, againStar⟩ := describesAgain.items_of_head head'
  dsimp only at againItems againStar
  refine ⟨after'.statement, acceptedAgain, ?_, ?_, alike⟩
  · rw [againItems, items, own, size, List.map_append, AddedColumn.map_bare_items, found]
  · rw [againStar, items, ownStar, found]

/-- The query for a shard is accepted: its items are those of the query and the added columns. -/
theorem exists_again (describes : query.Describes dialect text statement) (plain : dialect.IsPlain)
    (accepted : Statement.ofText dialect text = .ok statement)
    (unquoted : ∀ column aliasName, .key column aliasName ∈ statement.addedKeys → column.IsItem)
    (closed : statement.addedColumns ≠ [] → statement.projectionEnd = text.utf8ByteSize →
      EndsClosed text) : ∃ again,
      Statement.ofText dialect (({} : Routes).shardQuery statement.edits text) = .ok again ∧
      again.items.map Item.bare = statement.items.map Item.bare ++
        AddedColumn.items (statement.items.length + 1) statement.addedColumns ∧
      again.containsStar = statement.containsStar ∧ statement.Alike again := by
  by_cases none : statement.addedColumns = []
  · refine ⟨statement, by rwa [describes.shardQuery_of_none none], ?_, rfl, .refl statement⟩
    rw [none, AddedColumn.items, List.append_nil]
  · exact describes.exists_again_of_added plain accepted unquoted (closed none) none

end Query.Describes

namespace Statement

/-- **The query for a shard stays a query.** Where columns are added and no name is routed, the query
for a shard is accepted. Its items are those of the query it was made from, followed by one for each
column that was added, which has the expression and the alias of that column; the tables, the keys and
the row limit are the same. -/
theorem shardQuery_accepted {dialect : Dialect} (shipped : dialect ∈ Dialect.shipped)
    {text : String} {statement : Statement} (accepted : ofText dialect text = .ok statement)
    {offset : Nat} {columns : List String} (added : .projection offset columns ∈ statement.edits)
    (unquoted : ∀ column aliasName, .key column aliasName ∈ statement.addedKeys → column.IsItem)
    (closed : offset = text.utf8ByteSize → Token.EndsClosed text) : ∃ again items,
      ofText dialect (({} : Routes).shardQuery statement.edits text) = .ok again ∧
      again.items.map Item.bare = statement.items.map Item.bare ++ items ∧
      items.map Item.fragment? = columns.map some ∧ statement.Alike again := by
  have plain := Dialect.isPlain_of_shipped shipped
  obtain ⟨query, describes⟩ := exists_query plain accepted
  obtain ⟨_, rfl, rfl⟩ := describes.projection_mem_edits.mp added
  obtain ⟨again, acceptedAgain, items, _, alike⟩ :=
    describes.exists_again plain accepted unquoted fun _ => closed
  refine ⟨again, _, acceptedAgain, items, ?_, alike⟩
  rw [AddedColumn.map_fragment_items, List.map_map]
  rfl

/-- The parts of an average and a key are added, and read back as items. -/
theorem shardQuery_accepted_of_average :
    let text := "SELECT AVG(t.x) FROM t ORDER BY t.b"
    let columns := ["COUNT(t.x) AS AVG_DERIVED_COUNT_0", "SUM(t.x) AS AVG_DERIVED_SUM_0",
      "t.b AS ORDER_BY_DERIVED_0"]
    Dialect.generic ∈ Dialect.shipped ∧ ∃ statement, ofText .generic text = .ok statement ∧
      .projection 16 columns ∈ statement.edits ∧
      (∀ column aliasName, .key column aliasName ∈ statement.addedKeys → column.IsItem) ∧
      (16 = text.utf8ByteSize → Token.EndsClosed text) ∧ ∃ again items,
        ofText .generic (({} : Routes).shardQuery statement.edits text) = .ok again ∧
        again.items.map Item.bare = statement.items.map Item.bare ++ items ∧
        items.map Item.fragment? = columns.map some ∧ statement.Alike again := by
  have shipped : Dialect.generic ∈ Dialect.shipped := by simp [Dialect.shipped]
  have accepted : ofText .generic "SELECT AVG(t.x) FROM t ORDER BY t.b" = .ok
      { items := [.aggregation ⟨.avg, "(t.x)", none, 1, [⟨.count, "(t.x)", "AVG_DERIVED_COUNT_0"⟩,
          ⟨.sum, "(t.x)", "AVG_DERIVED_SUM_0"⟩]⟩]
        tables := [⟨"t", none⟩]
        orderBy := [.column ⟨some "t", "b", .ascending, some "ORDER_BY_DERIVED_0"⟩]
        projectionEnd := 16
        edits := [.tableName 21 "t", .tableName 32 "t",
          .projection 16 ["COUNT(t.x) AS AVG_DERIVED_COUNT_0", "SUM(t.x) AS AVG_DERIVED_SUM_0",
            "t.b AS ORDER_BY_DERIVED_0"]] } := by
    decide +kernel
  obtain ⟨statement, accepted, added, unquoted⟩ : ∃ statement,
      ofText .generic "SELECT AVG(t.x) FROM t ORDER BY t.b" = .ok statement ∧
        .projection 16 ["COUNT(t.x) AS AVG_DERIVED_COUNT_0", "SUM(t.x) AS AVG_DERIVED_SUM_0",
          "t.b AS ORDER_BY_DERIVED_0"] ∈ statement.edits ∧
        ∀ column aliasName, .key column aliasName ∈ statement.addedKeys → column.IsItem := by
    refine ⟨_, accepted, by simp, fun column aliasName added => ?_⟩
    change AddedColumn.key column aliasName ∈
      [AddedColumn.key ⟨some "t", "b"⟩ "ORDER_BY_DERIVED_0"] at added
    obtain ⟨rfl, _⟩ := AddedColumn.key.inj (List.mem_singleton.mp added)
    exact ⟨⟨by simpa using (by decide : Text.IsWord "t"), by decide⟩,
      by decide, by decide⟩
  have closed : 16 = "SELECT AVG(t.x) FROM t ORDER BY t.b".utf8ByteSize →
      Token.EndsClosed "SELECT AVG(t.x) FROM t ORDER BY t.b" := fun _ => by decide
  exact ⟨shipped, statement, accepted, added, unquoted, closed,
    shardQuery_accepted shipped accepted added unquoted closed⟩

/-- The column of a key is added without the quotes that its name needs, and the query for a shard is
rejected there. -/
theorem quoted_key_rejected :
    let text := "SELECT a FROM t ORDER BY \"select\""
    let columns := ["select AS ORDER_BY_DERIVED_0"]
    let shard := "SELECT a , select AS ORDER_BY_DERIVED_0 FROM t ORDER BY \"select\""
    ∃ statement, ofText .generic text = .ok statement ∧ .projection 9 columns ∈ statement.edits ∧
      Routes.shardQuery {} statement.edits text = shard ∧
      ofText .generic shard =
        .error (.unexpected .projectionItem (.keyword .SELECT) ⟨11, 17⟩) := by
  have accepted : ofText .generic "SELECT a FROM t ORDER BY \"select\"" = .ok
      { items := [.plain "a" none]
        tables := [⟨"t", none⟩]
        orderBy := [.column ⟨none, "select", .ascending, some "ORDER_BY_DERIVED_0"⟩]
        projectionEnd := 9
        edits := [.tableName 14 "t", .projection 9 ["select AS ORDER_BY_DERIVED_0"]] } := by
    decide +kernel
  exact ⟨_, accepted, by simp, by decide, by decide +kernel⟩

end Statement

end SelectRouting
