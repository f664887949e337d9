import Mathlib.Data.List.Basic
import SelectRouting.Proofs.RenamedQueries

/-!
# What is added again

In the query for a shard the parts of the averages are projected and most keys are projected under an
alias, so that nothing is left to add. The exception are the keys that the query it was made from
projects without an alias: their columns are added each time (`Statement.edits_of_routed_again`).
-/

namespace SelectRouting

namespace Text

/-- A number behind a word in upper case keeps it so. -/
theorem upper_numbered {stem : String} (isUpper : upper stem = stem) (number : Nat) :
    upper (stem ++ toString number) = stem ++ toString number := by
  have digits : (toString number).toList.map Char.toUpper = (toString number).toList := by
    refine (List.map_congr_left fun c member => ?_).trans (List.map_id _)
    rw [Nat.toString_eq_repr, Nat.toList_repr] at member
    exact toUpper_of_isDigit (Nat.isDigit_of_mem_toDigits (b := 10) (by decide) (by decide) member)
  rw [upper, String.toList_append, List.map_append, digits, String.ofList_append,
    String.ofList_toList]
  exact congrArg (· ++ _) isUpper

end Text

namespace Item

theorem face_bare (item : Item) : item.bare.face = item.face := by
  cases item <;> rfl

/-- The parts of averages do not depend on the parts that were found before. -/
theorem averageParts_bare (before : Nat) (items : List Item) :
    averageParts before (items.map bare) = averageParts before items := by
  induction items generalizing before with
  | nil => rfl
  | cons item items ih =>
    cases item with
    | aggregation call => 
      rw [List.map_cons, bare, averageParts, averageParts, ih, ih]
      rfl
    | star | plain => exact ih before

/-- Items that are no averages have no parts. -/
theorem averageParts_append {before : Nat} {items others : List Item}
    (noAverage : ∀ call, .aggregation call ∈ others → call.function ≠ .avg) :
    averageParts before (items ++ others) = averageParts before items := by
  induction items generalizing before with
  | nil =>
    induction others with
    | nil => rfl
    | cons item others ih =>
      have later := ih fun call member => noAverage call (List.mem_cons_of_mem _ member)
      cases item with
      | aggregation call =>
        have other : ¬ (call.function == .avg) = true := by
          simpa using noAverage call List.mem_cons_self
        exact (if_neg other).trans later
      | star | plain => exact later
  | cons item items ih =>
    cases item with
    | aggregation call => rw [List.cons_append, averageParts, averageParts, ih, ih]
    | star | plain => exact ih

/-- The parts of averages have aliases in upper case. -/
theorem upper_of_part {before : Nat} {items : List Item} {part : DerivedColumn}
    (member : part ∈ averageParts before items) : Text.upper part.aliasName = part.aliasName := by
  obtain ⟨call, number, _, own⟩ := exists_call_of_part member
  rcases Aggregation.part_cases own with rfl | rfl
  · exact Text.upper_numbered (by decide) number
  · exact Text.upper_numbered (by decide) number

end Item

namespace AddedColumn

/-- What the item that the column becomes is looked up by. -/
def face : AddedColumn → String × Option String
  | part column => (column.expression, some column.aliasName)
  | key column aliasName => (column.text, some aliasName)

theorem map_face_items (position : Nat) (columns : List AddedColumn) :
    (items position columns).map Item.face = columns.map face := by
  induction columns generalizing position with
  | nil => rfl
  | cons column columns ih =>
    rw [items, List.map_cons, ih, List.map_cons]
    cases column <;> rfl

/-- The calls among the items that columns become are parts of averages. -/
theorem exists_part_of_call {position : Nat} {columns : List AddedColumn} {call : Aggregation}
    (member : .aggregation call ∈ items position columns) :
    ∃ column, part column ∈ columns ∧ call.function = column.function := by
  induction columns generalizing position with
  | nil => cases member
  | cons column columns ih =>
    rcases List.mem_cons.mp member with own | others
    · cases column with
      | part column =>
        cases own
        exact ⟨column, List.mem_cons_self, rfl⟩
      | key => cases own
    · obtain ⟨column, inside, same⟩ := ih others
      exact ⟨column, List.mem_cons_of_mem _ inside, same⟩

theorem exists_numbered {stem : String} {number : Nat} {columns : List Column} {column : Column}
    (member : column ∈ columns) : ∃ aliasName, key column aliasName ∈ numbered stem number columns := by
  induction columns generalizing number with
  | nil => cases member
  | cons first columns ih =>
    rw [numbered_cons]
    rcases List.mem_cons.mp member with rfl | later
    · exact ⟨_, List.mem_cons_self⟩
    · obtain ⟨aliasName, inside⟩ := ih later
      exact ⟨aliasName, List.mem_cons_of_mem _ inside⟩

end AddedColumn

namespace Statement

/-- The first item that tells something of the column is the column itself, without an alias. -/
def projectsUnnamed (statement : Statement) (column : Column) : Bool :=
  (statement.items.map Item.face).findSome? (Item.aliasTold? column.text) == some none

/-- The columns of the keys that are projected without an alias. -/
def unnamedKeys (statement : Statement) : List AddedColumn :=
  if statement.containsStar then []
  else
    AddedColumn.numbered "ORDER_BY_DERIVED_" 0
        (statement.orderColumns.filter statement.projectsUnnamed) ++
      AddedColumn.numbered "GROUP_BY_DERIVED_" 0
        (statement.groupColumns.filter statement.projectsUnnamed)

section Again
variable {statement again : Statement} {position : Nat}

/-- The items are looked up by what those of the statement and the added columns are looked up by. -/
theorem faces_again (items : again.items.map Item.bare = statement.items.map Item.bare ++
      AddedColumn.items position statement.addedColumns) : again.items.map Item.face =
    statement.items.map Item.face ++ statement.addedColumns.map AddedColumn.face := by
  have faces (items : List Item) : (items.map Item.bare).map Item.face = items.map Item.face := by
    rw [List.map_map]
    exact List.map_congr_left fun item _ => item.face_bare
  rw [← faces, items, List.map_append, faces, AddedColumn.map_face_items]

/-- Averages are not added. -/
theorem function_of_added {part : DerivedColumn} (added : .part part ∈ statement.addedColumns) :
    part.function ≠ .avg := by
  have member := List.mem_of_mem_filter (part_mem_addedColumns.mp added)
  obtain ⟨call, number, _, own⟩ := Item.exists_call_of_part member
  rcases Aggregation.part_cases own with rfl | rfl <;> simp

/-- The parts of all averages are projected. -/
theorem addedParts_again (items : again.items.map Item.bare = statement.items.map Item.bare ++
      AddedColumn.items position statement.addedColumns) : again.addedParts = [] := by
  have noAverage (call : Aggregation)
      (member : .aggregation call ∈ AddedColumn.items position statement.addedColumns) :
      call.function ≠ .avg := by
    obtain ⟨part, added, same⟩ := AddedColumn.exists_part_of_call member
    rw [same]
    exact function_of_added added
  have parts : Item.averageParts 0 again.items = Item.averageParts 0 statement.items := by
    rw [← Item.averageParts_bare, items, Item.averageParts_append noAverage, Item.averageParts_bare]
  rw [addedParts, parts, List.filter_eq_nil_iff]
  intro part member
  simp only [Bool.not_eq_true', Bool.not_eq_false, List.contains_iff_mem]
  rw [projectedAliases_eq, faces_again items, List.filterMap_append, List.map_append, List.mem_append]
  by_cases projected : part.aliasName ∈ statement.projectedAliases
  · rw [projectedAliases_eq] at projected
    exact .inl projected
  · have isUpper := Item.upper_of_part member
    have added : part ∈ statement.addedParts :=
      List.mem_filter.mpr ⟨member, by simpa using projected⟩
    have face : (AddedColumn.part part).face ∈ statement.addedColumns.map AddedColumn.face :=
      List.mem_map_of_mem (part_mem_addedColumns.mpr added)
    exact .inr (List.mem_map.mpr ⟨part.aliasName, List.mem_filterMap.mpr ⟨_, face, rfl⟩, isUpper⟩)

/-- Every added column tells its alias, or that it is one. -/
theorem exists_told {columns : List AddedColumn} {name : String} {told : Option String}
    (found : (columns.map AddedColumn.face).findSome? (Item.aliasTold? name) = some told) :
    told ≠ none := by
  obtain ⟨face, member, is⟩ := List.exists_of_findSome?_eq_some found
  obtain ⟨column, _, rfl⟩ := List.mem_map.mp member
  unfold Item.aliasTold? at is
  split at is
  · obtain rfl := Option.some.inj is
    cases column <;> simp [AddedColumn.face]
  · split at is
    · obtain rfl := Option.some.inj is
      simp
    · cases is

/-- Of the columns for which nothing was projected, those are left that are projected without an
alias. -/
theorem unprojected_again (items : again.items.map Item.bare = statement.items.map Item.bare ++
      AddedColumn.items position statement.addedColumns)
    (noStar : statement.containsStar = false) (star : again.containsStar = statement.containsStar)
    {columns : List Column} (added : ∀ column ∈ statement.unprojected columns,
      ∃ aliasName, .key column aliasName ∈ statement.addedColumns) :
    again.unprojected columns = columns.filter statement.projectsUnnamed := by
  refine List.filter_congr fun column member => ?_
  have own : statement.aliasOf? column.text =
      ((statement.items.map Item.face).findSome? (Item.aliasTold? column.text)).join := by
    rw [aliasOf?_eq, noStar, if_neg Bool.false_ne_true]
  rw [aliasOf?_eq, star, noStar, if_neg Bool.false_ne_true, faces_again items, List.findSome?_append,
    projectsUnnamed]
  cases told : (statement.items.map Item.face).findSome? (Item.aliasTold? column.text) with
  | some answer => cases answer <;> rfl
  | none =>
    rw [told] at own
    obtain ⟨aliasName, inside⟩ := added column
      (List.mem_filter.mpr ⟨member, by rw [own]; rfl⟩)
    have isKey : Item.aliasTold? column.text (AddedColumn.key column aliasName).face =
        some (some aliasName) := by
      simp [Item.aliasTold?, AddedColumn.face, Text.sameIgnoringCase]
    obtain ⟨answer, found⟩ : ∃ answer, (statement.addedColumns.map AddedColumn.face).findSome?
        (Item.aliasTold? column.text) = some answer := by
      refine Option.isSome_iff_exists.mp (List.findSome?_isSome_iff.mpr ?_)
      exact ⟨_, List.mem_map_of_mem inside, by rw [isKey]; rfl⟩
    obtain ⟨aliasName, rfl⟩ := Option.ne_none_iff_exists'.mp (exists_told found)
    rw [found]
    rfl

/-- What the query for a shard adds are the columns of the keys that are projected without an
alias. -/
theorem addedColumns_again (items : again.items.map Item.bare = statement.items.map Item.bare ++
      AddedColumn.items position statement.addedColumns)
    (star : again.containsStar = statement.containsStar) (alike : statement.Alike again) :
    again.addedColumns = statement.unnamedKeys := by
  rw [addedColumns, addedParts_again items, List.map_nil, List.nil_append, addedKeys, unnamedKeys,
    star]
  by_cases all : statement.containsStar = true
  · rw [if_pos all, if_pos all]
  · have order (statement : Statement) : statement.orderColumns =
        ((statement.orderBy.map OrderKey.bare).filterMap OrderKey.columnKey?).map ColumnKey.column := by
      rw [orderColumns, List.filterMap_map, List.map_filterMap, List.map_filterMap]
      refine congrArg (List.filterMap · _) (funext fun key => ?_)
      cases key <;> rfl
    have group (statement : Statement) : statement.groupColumns =
        (statement.groupBy.map ColumnKey.bare).map ColumnKey.column := by
      rw [groupColumns, List.map_map]
      rfl
    have keys : statement.addedKeys = AddedColumn.numbered "ORDER_BY_DERIVED_" 0
        (statement.unprojected statement.orderColumns) ++ AddedColumn.numbered "GROUP_BY_DERIVED_" 0
          (statement.unprojected statement.groupColumns) := if_neg all
    have ordered (column : Column)
        (missing : column ∈ statement.unprojected statement.orderColumns) :
        ∃ aliasName, .key column aliasName ∈ statement.addedColumns := by
      obtain ⟨aliasName, member⟩ := AddedColumn.exists_numbered missing
      refine ⟨aliasName, key_mem_addedColumns.mpr ?_⟩
      rw [keys]
      exact List.mem_append_left _ member
    have grouped (column : Column)
        (missing : column ∈ statement.unprojected statement.groupColumns) :
        ∃ aliasName, .key column aliasName ∈ statement.addedColumns := by
      obtain ⟨aliasName, member⟩ := AddedColumn.exists_numbered missing
      refine ⟨aliasName, key_mem_addedColumns.mpr ?_⟩
      rw [keys]
      exact List.mem_append_right _ member
    have noStar : statement.containsStar = false := by simpa using all
    rw [if_neg all, if_neg all, order again, group again, alike.orderBy, alike.groupBy, ← order,
      ← group, unprojected_again items noStar star ordered,
      unprojected_again items noStar star grouped]

end Again

/-- The query for a shard in which no name is routed needs no columns added but those of the keys that
the query projects without an alias; those are added once more. -/
theorem edits_of_again {dialect : Dialect} (shipped : dialect ∈ Dialect.shipped) {text : String}
    {statement : Statement} (accepted : ofText dialect text = .ok statement)
    (unquoted : ∀ column aliasName, .key column aliasName ∈ statement.addedKeys → column.IsItem)
    (closed : ∀ columns, .projection text.utf8ByteSize columns ∈ statement.edits →
      Token.EndsClosed text) : ∃ again,
    ofText dialect (({} : Routes).shardQuery statement.edits text) = .ok again ∧
      ∀ offset columns, .projection offset columns ∈ again.edits ↔ statement.unnamedKeys ≠ [] ∧
        offset = again.projectionEnd ∧ columns = statement.unnamedKeys.map AddedColumn.text := by
  have plain := Dialect.isPlain_of_shipped shipped
  obtain ⟨query, describes⟩ := exists_query plain accepted
  obtain ⟨again, acceptedAgain, items, star, alike⟩ :=
    describes.exists_again plain accepted unquoted fun added ends => closed _
      (describes.projection_mem_edits.mpr ⟨added, ends.symm, rfl⟩)
  obtain ⟨_, describesAgain⟩ := exists_query plain acceptedAgain
  refine ⟨again, acceptedAgain, fun offset columns => ?_⟩
  rw [describesAgain.projection_mem_edits, addedColumns_again items star alike]

/-- **What is added settles.** Where the columns that a query misses are those that it misses with its
names replaced, the query for a shard needs no columns added but those of the keys that are projected
without an alias; those are added once more. -/
theorem edits_of_routed_again {dialect : Dialect} (shipped : dialect ∈ Dialect.shipped) {text : String}
    {statement : Statement} (accepted : ofText dialect text = .ok statement) {routes : Routes}
    (renamable : statement.Renamable routes text)
    (unquoted : ∀ column aliasName, .key column aliasName ∈ statement.addedKeys → column.IsItem)
    (closed : ∀ columns, .projection text.utf8ByteSize columns ∈ statement.edits →
      Token.EndsClosed text)
    (follows : ∀ routed, ofText dialect (statement.renamedText routes text) = .ok routed →
      routed.addedColumns = statement.addedColumns) : ∃ routed again,
    ofText dialect (statement.renamedText routes text) = .ok routed ∧
      ofText dialect (routes.shardQuery statement.edits text) = .ok again ∧
      ∀ offset columns, .projection offset columns ∈ again.edits ↔ routed.unnamedKeys ≠ [] ∧
        offset = again.projectionEnd ∧ columns = routed.unnamedKeys.map AddedColumn.text := by
  have plain := Dialect.isPlain_of_shipped shipped
  obtain ⟨query, describes⟩ := exists_query plain accepted
  obtain ⟨routed, acceptedRouted, ends, same⟩ := describes.shardQuery_renamed plain accepted renamable
    (fun added stops => closed _ (describes.projection_mem_edits.mpr ⟨added, stops.symm, rfl⟩)) follows
  obtain ⟨_, describesRouted⟩ := exists_query plain acceptedRouted
  have columns := follows routed acceptedRouted
  obtain ⟨again, acceptedAgain, added⟩ := edits_of_again shipped acceptedRouted
    (fun column aliasName missing => unquoted column aliasName
      (key_mem_addedColumns.mp (columns ▸ key_mem_addedColumns.mpr missing)))
    fun _ member => ends (describesRouted.projection_mem_edits.mp member).1
      (describesRouted.projection_mem_edits.mp member).2.1.symm
  exact ⟨routed, again, acceptedRouted, by rwa [same], added⟩

/-- The name is replaced, and the parts of the average and the key of `ORDER BY` are added once; the key
of `GROUP BY`, which is projected without an alias, is added again. -/
theorem edits_of_routed_again_of_group :
    let text := "SELECT t.b, a, AVG(x) FROM t GROUP BY a ORDER BY c"
    let routes := Routes.ofList [("t", "t_0")]
    Dialect.generic ∈ Dialect.shipped ∧ ∃ statement, ofText .generic text = .ok statement ∧
      statement.Renamable routes text ∧
      (∀ column aliasName, .key column aliasName ∈ statement.addedKeys → column.IsItem) ∧
      (∀ columns, .projection text.utf8ByteSize columns ∈ statement.edits → Token.EndsClosed text) ∧
      (∀ routed, ofText .generic (statement.renamedText routes text) = .ok routed →
        routed.addedColumns = statement.addedColumns) ∧
      routes.shardQuery statement.edits text = "SELECT t_0.b, a, AVG(x) , " ++
        "COUNT(x) AS AVG_DERIVED_COUNT_0, SUM(x) AS AVG_DERIVED_SUM_0, c AS ORDER_BY_DERIVED_0, " ++
          "a AS GROUP_BY_DERIVED_0 FROM t_0 GROUP BY a ORDER BY c" ∧ ∃ routed again,
        ofText .generic (statement.renamedText routes text) = .ok routed ∧
          ofText .generic (routes.shardQuery statement.edits text) = .ok again ∧
          ∀ offset columns, .projection offset columns ∈ again.edits ↔ routed.unnamedKeys ≠ [] ∧
            offset = again.projectionEnd ∧ columns = routed.unnamedKeys.map AddedColumn.text := by
  intro text routes
  have shipped : Dialect.generic ∈ Dialect.shipped := by simp [Dialect.shipped]
  let parsed (table : String) (first second stop : Nat) : Statement := {
    items := [.plain (table ++ ".b") none, .plain "a" none, .aggregation ⟨.avg, "(x)", none, 3,
      [⟨.count, "(x)", "AVG_DERIVED_COUNT_0"⟩, ⟨.sum, "(x)", "AVG_DERIVED_SUM_0"⟩]⟩]
    tables := [⟨table, none⟩]
    groupBy := [⟨none, "a", .ascending, some "GROUP_BY_DERIVED_0"⟩]
    orderBy := [.column ⟨none, "c", .ascending, some "ORDER_BY_DERIVED_0"⟩]
    projectionEnd := stop
    edits := [.tableName first table, .tableName second table, .projection stop
      ["COUNT(x) AS AVG_DERIVED_COUNT_0", "SUM(x) AS AVG_DERIVED_SUM_0", "c AS ORDER_BY_DERIVED_0",
        "a AS GROUP_BY_DERIVED_0"]] }
  let statement := parsed "t" 7 27 22
  have keys (column : Column) (aliasName : String)
      (added : .key column aliasName ∈ statement.addedKeys) : column.IsItem := by
    change AddedColumn.key column aliasName ∈ [AddedColumn.key ⟨none, "c"⟩ "ORDER_BY_DERIVED_0",
      AddedColumn.key ⟨none, "a"⟩ "GROUP_BY_DERIVED_0"] at added
    rcases List.mem_cons.mp added with same | added
    · obtain ⟨rfl, _⟩ := AddedColumn.key.inj same
      exact ⟨⟨by simp, by decide⟩, by decide, by decide⟩
    · obtain ⟨rfl, _⟩ := AddedColumn.key.inj (List.mem_singleton.mp added)
      exact ⟨⟨by simp, by decide⟩, by decide, by decide⟩
  obtain ⟨accepted, acceptedRouted, tokens, parted⟩ : ofText .generic text = .ok statement ∧
      ofText .generic (statement.renamedText routes text) = .ok (parsed "t_0" 7 29 24) ∧
      (∀ token ∈ Token.list text, Token.isRouted routes.get? statement.edited token = true →
        token.kind.sameShape (.identifier "") = true ∧ Text.IsOrdinary token.lexeme) ∧
      (Token.list text).IsChain (Token.Parted routes.get? statement.edited) := by
    decide +kernel
  have renamable : statement.Renamable routes text := by
    refine ⟨fun logical name found => ?_, parted, fun token member routed => ?_⟩
    · obtain rfl : name = "t_0" := by simpa [routes] using Routes.mem_of_get? found
      decide +kernel
    · obtain ⟨shape, ordinary⟩ := tokens token member routed
      refine ⟨?_, ordinary⟩
      generalize token.kind = kind at shape
      cases kind with
      | identifier name => exact ⟨name, rfl⟩
      | _ => cases shape
  have closed (columns : List String)
      (_ : .projection text.utf8ByteSize columns ∈ statement.edits) : Token.EndsClosed text := by
    decide +kernel
  have follows (routed : Statement)
      (read : ofText .generic (statement.renamedText routes text) = .ok routed) :
      routed.addedColumns = statement.addedColumns := by
    obtain rfl := Except.ok.inj (acceptedRouted.symm.trans read)
    decide +kernel
  exact ⟨shipped, statement, accepted, renamable, keys, closed, follows, by decide +kernel,
    edits_of_routed_again shipped accepted renamable keys closed follows⟩

/-- A key that is projected without an alias is projected once more, and when the query for the shard
is analysed, yet another time. -/
theorem projected_key_added_again :
    let text := "SELECT a FROM t ORDER BY a"
    let columns := ["a AS ORDER_BY_DERIVED_0"]
    let shard := "SELECT a , a AS ORDER_BY_DERIVED_0 FROM t ORDER BY a"
    ∃ statement again, ofText .generic text = .ok statement ∧
      .projection 9 columns ∈ statement.edits ∧
      Routes.shardQuery {} statement.edits text = shard ∧
      ofText .generic shard = .ok again ∧ .projection 35 columns ∈ again.edits := by
  obtain ⟨accepted, acceptedAgain⟩ : ofText .generic "SELECT a FROM t ORDER BY a" = .ok
        { items := [.plain "a" none]
          tables := [⟨"t", none⟩]
          orderBy := [.column ⟨none, "a", .ascending, some "ORDER_BY_DERIVED_0"⟩]
          projectionEnd := 9
          edits := [.tableName 14 "t", .projection 9 ["a AS ORDER_BY_DERIVED_0"]] } ∧
      ofText .generic "SELECT a , a AS ORDER_BY_DERIVED_0 FROM t ORDER BY a" = .ok
        { items := [.plain "a" none, .plain "a" (some "ORDER_BY_DERIVED_0")]
          tables := [⟨"t", none⟩]
          orderBy := [.column ⟨none, "a", .ascending, some "ORDER_BY_DERIVED_0"⟩]
          projectionEnd := 35
          edits := [.tableName 40 "t", .projection 35 ["a AS ORDER_BY_DERIVED_0"]] } := by
    decide +kernel
  exact ⟨_, _, accepted, by simp, by decide, acceptedAgain, by simp⟩

end Statement

end SelectRouting
