import Mathlib.Data.List.Basic
import SelectRouting.Proofs.AddedAgain

/-!
# The aliases of averages and keys

The averages are numbered in the order of the projection list, and the keys for which the list gives
no alias in the order of their clause. Their numbers make the aliases under which the columns that are
missing are added (`Statement.derived_exactly`).
-/

namespace SelectRouting

namespace Item

/-- The item is an average. -/
def isAverage : Item → Bool
  | .aggregation call => call.function == .avg
  | _ => false

/-- The parts that were found for the item. -/
def derived : Item → List DerivedColumn
  | .aggregation call => call.derived
  | _ => []

/-- The item has the alias, up to case. -/
def isNamed (aliasName : String) (item : Item) : Bool :=
  item.aliasName.any (Text.sameIgnoringCase · aliasName)

section Split
variable {before : Nat}

theorem isAverage_splitAverage (item : Item) :
    (item.splitAverage before).1.isAverage = item.isAverage := by
  cases item with
  | aggregation call => cases function : call.function <;> simp [splitAverage, isAverage, function]
  | star | plain => rfl

/-- An average is counted, and no other item. -/
theorem next_splitAverage (item : Item) :
    (item.splitAverage before).2 = before + if item.isAverage then 1 else 0 := by
  cases item with
  | aggregation call => cases function : call.function <;> simp [splitAverage, isAverage, function]
  | star | plain => rfl

/-- Each item is split with the number of averages before it. -/
theorem splitAverages_cons (item : Item) (items : List Item) :
    splitAverages before (item :: items) = (item.splitAverage before).1 ::
      splitAverages (before + if item.isAverage then 1 else 0) items := by
  rw [← next_splitAverage]
  rfl

/-- Of the items, the averages have the parts that are numbered by the averages before them. -/
theorem derived_splitAverages {items front behind : List Item} {call : Aggregation}
    (underived : ∀ item ∈ items, item.derived = [])
    (split : splitAverages before items = front ++ .aggregation call :: behind) :
    call.derived =
      if call.function = .avg then call.parts (before + front.countP isAverage) else [] := by
  induction items generalizing before front with
  | nil => simp [splitAverages] at split
  | cons item items ih =>
    rw [splitAverages_cons] at split
    cases front with
    | nil =>
      have own : (item.splitAverage before).1 = .aggregation call := (List.cons.inj split).1
      have none := underived item List.mem_cons_self
      cases item with
      | aggregation found =>
        by_cases average : found.function = .avg
        · rw [splitAverage, if_pos (beq_iff_eq.mpr average)] at own
          obtain rfl := Item.aggregation.inj own
          rw [if_pos average]
          rfl
        · rw [splitAverage, if_neg (mt beq_iff_eq.mp average)] at own
          obtain rfl := Item.aggregation.inj own
          rw [if_neg average]
          exact none
      | star | plain => cases own
    | cons first front =>
      obtain ⟨rfl, rest⟩ := List.cons.inj split
      have later := ih (fun item member => underived item (List.mem_cons_of_mem _ member)) rest
      rw [later, List.countP_cons, isAverage_splitAverage, Nat.add_assoc,
        Nat.add_comm (if item.isAverage = true then 1 else 0)]

/-- The parts of the averages are those that the items have. -/
theorem flatMap_derived_splitAverages {items : List Item}
    (underived : ∀ item ∈ items, item.derived = []) :
    (splitAverages before items).flatMap derived = averageParts before items := by
  induction items generalizing before with
  | nil => rfl
  | cons item items ih =>
    have none := underived item List.mem_cons_self
    have later (next : Nat) := @ih next fun item member =>
      underived item (List.mem_cons_of_mem _ member)
    rw [splitAverages_cons, List.flatMap_cons, later]
    cases item with
    | aggregation call =>
      by_cases average : call.function = .avg
      · simp [splitAverage, averageParts, derived, isAverage, average]
      · have given : call.derived = [] := none
        simp [splitAverage, averageParts, derived, isAverage, average, given]
    | star | plain => rfl

end Split

end Item

namespace ColumnKey
variable {stem : String} {number : Nat} {told : String → Option String}

/-- The key under the alias that is told for its column, or else under the numbered one. -/
def complete (stem : String) (number : Nat) (told : String → Option String) (key : ColumnKey) :
    ColumnKey :=
  { key with aliasName := some ((told key.qualifiedName).getD (stem ++ toString number)) }

@[simp] theorem qualifiedName_complete (key : ColumnKey) :
    (key.complete stem number told).qualifiedName = key.qualifiedName := rfl

/-- The column that is added for the key, under its alias, unless an alias is told for the column. -/
def added? (told : String → Option String) (key : ColumnKey) : Option AddedColumn :=
  if (told key.qualifiedName).isSome then none else key.aliasName.map (.key key.column)

/-- The text that adds the column of the key under its alias, unless an alias is told for it. -/
def fragment? (told : String → Option String) (key : ColumnKey) : Option String :=
  if (told key.qualifiedName).isSome then none else key.aliasName.map (aliased key.qualifiedName)

theorem fragment?_eq (key : ColumnKey) :
    key.fragment? told = (key.added? told).map AddedColumn.text := by
  unfold fragment? added?
  split
  · rfl
  · rw [Option.map_map]
    rfl

/-- A key for which no alias is told gets a numbered one. -/
theorem derive_eq {key : ColumnKey} (resolved : key.aliasName = told key.qualifiedName) :
    (key.derive stem number).1 = key.complete stem number told ∧
      (key.derive stem number).2.isSome = (told key.qualifiedName).isNone := by
  rw [derive, complete]
  cases given : told key.qualifiedName with
  | some aliasName =>
    obtain ⟨owner, name, direction, _⟩ := key
    obtain rfl := resolved.trans given
    exact ⟨rfl, rfl⟩
  | none =>
    rw [resolved.trans given]
    exact ⟨rfl, rfl⟩

/-- The keys behind are numbered on where the first got a number. -/
theorem deriveAll_cons {key : ColumnKey} (keys : List ColumnKey)
    (resolved : key.aliasName = told key.qualifiedName) : (deriveAll stem number (key :: keys)).1 =
      key.complete stem number told ::
        (deriveAll stem (number + if (told key.qualifiedName).isNone then 1 else 0) keys).1 := by
  obtain ⟨completed, counted⟩ := @derive_eq stem number told key resolved
  rw [← completed, ← counted, deriveAll]
  dsimp only
  cases (key.derive stem number).2 <;> rfl

/-- The keys have the aliases that are told for them, and the others are numbered. -/
theorem aliasName_deriveAll {keys front behind : List ColumnKey} {key : ColumnKey}
    (resolved : ∀ key ∈ keys, key.aliasName = told key.qualifiedName)
    (split : (deriveAll stem number keys).1 = front ++ key :: behind) :
    key.aliasName = some ((told key.qualifiedName).getD
      (stem ++ toString (number + front.countP fun key => (told key.qualifiedName).isNone))) := by
  induction keys generalizing number front with
  | nil => simp [deriveAll] at split
  | cons first keys ih =>
    rw [deriveAll_cons keys (resolved first List.mem_cons_self)] at split
    cases front with
    | nil =>
      obtain ⟨rfl, _⟩ := List.cons.inj split
      rfl
    | cons other front =>
      obtain ⟨rfl, rest⟩ := List.cons.inj split
      have later := ih (fun key member => resolved key (List.mem_cons_of_mem _ member)) rest
      rw [later, List.countP_cons, qualifiedName_complete, Nat.add_assoc,
        Nat.add_comm (List.countP _ _)]

/-- The columns of the keys that had no alias are added under numbered ones. -/
theorem added_deriveAll {keys : List ColumnKey}
    (resolved : ∀ key ∈ keys, key.aliasName = told key.qualifiedName) :
    (deriveAll stem number keys).1.filterMap (added? told) =
      AddedColumn.numbered stem number
        ((keys.filter fun key => key.aliasName.isNone).map column) := by
  induction keys generalizing number with
  | nil => rfl
  | cons key keys ih =>
    have own := resolved key List.mem_cons_self
    have later (next : Nat) := @ih next fun key member =>
      resolved key (List.mem_cons_of_mem _ member)
    rw [deriveAll_cons keys own, List.filterMap_cons, later, added?, qualifiedName_complete,
      List.filter_cons, own]
    cases given : told key.qualifiedName with
    | some aliasName => rfl
    | none =>
      rw [complete, given]
      rfl

end ColumnKey

/-- The alias of a key; a position has none. -/
def OrderKey.aliasName (key : OrderKey) : Option String :=
  key.columnKey?.bind ColumnKey.aliasName

namespace Statement

/-- The statement tells whether an item is a star, and no average is split yet. -/
structure IsListed (statement : Statement) : Prop where
  star : statement.containsStar = statement.items.any Item.isStar
  underived : ∀ item ∈ statement.items, item.derived = []

theorem IsListed.add {statement : Statement} (listed : statement.IsListed) {item : Item}
    (underived : item.derived = []) :
    IsListed { statement with
      items := statement.items ++ [item]
      containsStar := statement.containsStar || item.isStar } where
  star := by
    simp [listed.star]
  underived := by
    intro other member
    rcases List.mem_append.mp member with before | own
    · exact listed.underived other before
    · rw [List.mem_singleton.mp own, underived]

end Statement

namespace AnalysisStep
open Scan Step Statement

/-- An expression is no call. -/
theorem derived_of_plainItem {start : Nat} {afterValue : Bool} {before after : Analysis} {item : Item}
    (answers : Yields (plainItem start afterValue) before item after) : item.derived = [] := by
  obtain ⟨_, _, _, _, _, _, rfl, _⟩ := yields_plainItem.mp answers
  rfl

/-- An item has no parts when it is read. -/
theorem item_underived {dialect : Dialect} (noWord : dialect.itemWord = none) (position : Nat) :
    Ensures IsListed (item dialect position) fun item s => s.IsListed ∧ item.derived = [] where
  of_yields answers listed := by
    refine ⟨(item_keeps (fun _ _ kept => ⟨kept.star, kept.underived⟩) noWord position).of_yields
      answers listed, ?_⟩
    cases (yields_item noWord).mp answers with
    | star | call => rfl
    | callInText _ _ _ _ plain => exact derived_of_plainItem plain
    | text _ _ _ plain => exact derived_of_plainItem plain

theorem head_listed {dialect : Dialect} (noWord : dialect.itemWord = none) :
    Keeps IsListed (head dialect) := by
  have round (position : Nat) : Keeps IsListed (itemRound dialect position) := by
    unfold itemRound
    exact .bind (item_underived noWord position) fun item =>
      .bind (.change fun _ holds => holds.1.add holds.2) fun _ => .bind .scan fun _ =>
        .pure fun _ => id
  have list : Keeps IsListed (projection dialect) := by
    unfold projection
    exact .bind (.rounding round) fun _ => .bind .scan fun _ =>
      .change fun _ listed => ⟨listed.star, listed.underived⟩
  have marked : Keeps IsListed (distinct dialect) :=
    distinct_keeps (fun _ listed => ⟨listed.star, listed.underived⟩) dialect
  exact .bind .scan fun _ => .bind marked fun _ => list

end AnalysisStep

namespace Statement

/-- The texts that add the parts of the averages, without the parts whose alias an item has. -/
def partFragments (statement : Statement) : List String :=
  (statement.items.flatMap Item.derived).filterMap fun part =>
    if statement.items.any (Item.isNamed part.aliasName) then none
    else some (aliased part.expression part.aliasName)

/-- The texts that add the columns of the keys for which the projection list gives no alias. -/
def keyFragments (statement : Statement) (keys : List ColumnKey) : List String :=
  keys.filterMap (ColumnKey.fragment? statement.aliasOf?)

/-- The texts that add what is missing, in the order in which they are added. -/
def fragments (statement : Statement) : List String :=
  statement.partFragments ++
    statement.keyFragments (statement.orderBy.filterMap OrderKey.columnKey?) ++
    statement.keyFragments statement.groupBy

/-- The alias of a key that stands behind others of its clause: the one that the projection list gives,
or else the number of keys before it for which the list gives none. A list with a star gives none, and
its keys are not numbered. -/
def keyAlias (statement : Statement) (stem : String) (others : List ColumnKey) (key : ColumnKey) :
    Option String :=
  if statement.containsStar then none
  else
    some ((statement.aliasOf? key.qualifiedName).getD
      (stem ++ toString (others.countP fun key => (statement.aliasOf? key.qualifiedName).isNone)))

/-- The keys of a clause with an alias each, unless the projection list has a star. -/
def completed (statement : Statement) (stem : String) (keys : List ColumnKey) : List ColumnKey :=
  if statement.containsStar then keys else (ColumnKey.deriveAll stem 0 keys).1

section Derived
variable {parsed : Statement}

theorem any_isStar_withDerivedColumns :
    parsed.withDerivedColumns.items.any Item.isStar = parsed.items.any Item.isStar := by
  change (Item.splitAverages 0 parsed.items).any Item.isStar = _
  generalize 0 = before
  induction parsed.items generalizing before with
  | nil => rfl
  | cons item items ih =>
    have same : (item.splitAverage before).1.isStar = item.isStar := by
      cases item with
      | aggregation call =>
        cases function : call.function <;> simp [Item.splitAverage, function, Item.isStar]
      | star | plain => rfl
    rw [Item.splitAverages_cons, List.any_cons, List.any_cons, same, ih]

theorem groupBy_withDerivedColumns :
    parsed.withDerivedColumns.groupBy = parsed.completed "GROUP_BY_DERIVED_" parsed.groupBy := by
  unfold completed withDerivedColumns
  dsimp only
  split <;> rfl

theorem orderBy_withDerivedColumns :
    parsed.withDerivedColumns.orderBy.filterMap OrderKey.columnKey? =
      parsed.completed "ORDER_BY_DERIVED_" (parsed.orderBy.filterMap OrderKey.columnKey?) := by
  unfold completed withDerivedColumns
  dsimp only
  split
  · rfl
  · rw [OrderKey.deriveAll_keys]

/-- The items of a list with a star give no aliases. -/
theorem aliasOf?_of_star (star : parsed.containsStar = true) (name : String) :
    parsed.aliasOf? name = none :=
  if_pos star

section Keys
variable {stem : String} {keys : List ColumnKey}
  (resolved : ∀ key ∈ keys, key.aliasName = parsed.aliasOf? key.qualifiedName)
include resolved

/-- The aliases of the keys of a clause are told by the items and the keys before them. -/
theorem aliasName_completed {front behind : List ColumnKey} {key : ColumnKey}
    (split : parsed.completed stem keys = front ++ key :: behind) :
    key.aliasName = parsed.withDerivedColumns.keyAlias stem front key := by
  have flag : parsed.withDerivedColumns.containsStar = parsed.containsStar := rfl
  unfold keyAlias
  rw [flag]
  unfold completed at split
  by_cases star : parsed.containsStar = true
  · rw [if_pos star] at split ⊢
    have member : key ∈ keys := by
      rw [show keys = front ++ key :: behind from split]
      simp
    rw [resolved key member, aliasOf?_of_star star]
  · rw [if_neg star] at split ⊢
    simp only [aliasOf?_withDerivedColumns]
    rw [ColumnKey.aliasName_deriveAll resolved split, Nat.zero_add]

/-- The keys of a clause tell which columns are added for them. -/
theorem added_completed :
    (parsed.completed stem keys).filterMap (ColumnKey.added? parsed.aliasOf?) =
      if parsed.containsStar then []
      else AddedColumn.numbered stem 0
        ((keys.filter fun key => key.aliasName.isNone).map ColumnKey.column) := by
  unfold completed
  by_cases star : parsed.containsStar = true
  · rw [if_pos star, if_pos star]
    refine List.filterMap_eq_nil_iff.mpr fun key member => ?_
    rw [ColumnKey.added?, resolved key member, aliasOf?_of_star star]
    rfl
  · rw [if_neg star, if_neg star, ColumnKey.added_deriveAll resolved]

end Keys

/-- An alias in upper case is projected where an item has it. -/
theorem any_isNamed (statement : Statement) {aliasName : String}
    (isUpper : Text.upper aliasName = aliasName) :
    statement.items.any (Item.isNamed aliasName) = statement.projectedAliases.contains aliasName := by
  rw [Bool.eq_iff_iff, List.any_eq_true, List.contains_iff_mem, projectedAliases, List.mem_map]
  constructor
  · rintro ⟨item, member, named⟩
    obtain ⟨given, own, same⟩ := (Option.any_eq_true ..).mp named
    exact ⟨given, List.mem_filterMap.mpr ⟨item, member, own⟩, (Text.upper_eq_iff isUpper).mpr same⟩
  · rintro ⟨given, member, same⟩
    obtain ⟨item, inside, own⟩ := List.mem_filterMap.mp member
    refine ⟨item, inside, ?_⟩
    rw [Item.isNamed, own]
    exact (Text.upper_eq_iff isUpper).mp same

/-- The parts of the averages are those of the items. -/
theorem flatMap_derived_withDerivedColumns (listed : parsed.IsListed) :
    parsed.withDerivedColumns.items.flatMap Item.derived =
      Item.averageParts 0 parsed.withDerivedColumns.items := by
  change (Item.splitAverages 0 parsed.items).flatMap Item.derived =
    Item.averageParts 0 (Item.splitAverages 0 parsed.items)
  rw [Item.flatMap_derived_splitAverages listed.underived, Item.averageParts_splitAverages]

/-- The columns for the averages are told by the parts of the items. -/
theorem partFragments_withDerivedColumns (listed : parsed.IsListed) :
    parsed.withDerivedColumns.partFragments = parsed.withDerivedColumns.averageColumns := by
  unfold partFragments averageColumns
  rw [flatMap_derived_withDerivedColumns listed]
  refine List.filterMap_congr fun part member => ?_
  rw [any_isNamed _ (Item.upper_of_part member)]

section Whole
variable {items : List Item} {containsStar : Bool} (resolves : parsed.Resolves items containsStar)
include resolves

/-- The keys of the clauses tell which columns are added for them. -/
theorem addedKeys_withDerivedColumns : parsed.withDerivedColumns.addedKeys =
    parsed.withDerivedColumns.columnKeys.filterMap
      (ColumnKey.added? parsed.withDerivedColumns.aliasOf?) := by
  have told : parsed.withDerivedColumns.aliasOf? = parsed.aliasOf? :=
    funext (aliasOf?_withDerivedColumns parsed)
  have ordered := @added_completed parsed "ORDER_BY_DERIVED_" _ fun key member =>
    resolves.keys key (List.mem_append_left _ member)
  have grouped := @added_completed parsed "GROUP_BY_DERIVED_" _ fun key member =>
    resolves.keys key (List.mem_append_right _ member)
  rw [resolves.filter_eq (List.subset_append_left ..)] at ordered
  rw [resolves.filter_eq (List.subset_append_right ..)] at grouped
  rw [columnKeys, List.filterMap_append, told, orderBy_withDerivedColumns, groupBy_withDerivedColumns,
    ordered, grouped]
  have same (columns : List Column) :
      parsed.withDerivedColumns.unprojected columns = parsed.unprojected columns := by
    rw [unprojected, told]
    rfl
  rw [addedKeys, orderColumns_withDerivedColumns, groupColumns_withDerivedColumns, same, same]
  by_cases star : parsed.containsStar = true
  · rw [if_pos star, if_pos star]
    exact if_pos star
  · rw [if_neg star, if_neg star]
    exact if_neg star

/-- The fragments are the texts of the columns that are added. -/
theorem fragments_withDerivedColumns (listed : parsed.IsListed) :
    parsed.withDerivedColumns.fragments =
      parsed.withDerivedColumns.addedColumns.map AddedColumn.text := by
  have keys (keys : List ColumnKey) : parsed.withDerivedColumns.keyFragments keys =
      (keys.filterMap (ColumnKey.added? parsed.withDerivedColumns.aliasOf?)).map AddedColumn.text := by
    rw [keyFragments, List.map_filterMap]
    exact List.filterMap_congr fun key _ => key.fragment?_eq
  rw [fragments, partFragments_withDerivedColumns listed, averageColumns_eq, keys, keys,
    List.append_assoc, ← List.map_append, ← List.filterMap_append, ← columnKeys,
    ← addedKeys_withDerivedColumns resolves, addedColumns, List.map_append]

end Whole

end Derived

end Statement

/-- The statement of a query is one that was parsed, with its derived columns. -/
theorem Query.Describes.exists_listed {query : Query} {dialect : Dialect} {text : String}
    {statement : Statement} (describes : query.Describes dialect text statement)
    (plain : dialect.IsPlain) : ∃ (parsed : Statement) (items : List Item) (containsStar : Bool),
      statement = parsed.withDerivedColumns ∧ parsed.IsListed ∧ parsed.Resolves items containsStar ∧
      parsed.edits = query.anchors.map Token.edit := by
  obtain ⟨parsed, derived, edits, _, _, middle, head, resolves⟩ := describes.derived
  have inList : middle.statement.IsListed :=
    (AnalysisStep.head_listed plain.itemWord).of_yields head ⟨rfl, by simp⟩
  refine ⟨parsed, _, _, derived, ⟨?_, ?_⟩, resolves, edits⟩
  · rw [resolves.containsStar, resolves.items, inList.star]
  · rw [resolves.items]
    exact inList.underived

namespace Statement

/-- The derived columns of the statement are those that its items and keys call for. -/
structure IsCompleted (statement : Statement) : Prop where
  star : statement.containsStar = true ↔ ∃ aliasName, .star aliasName ∈ statement.items
  /-- An average has two parts, numbered by the averages before it, and no other call has any. -/
  parts : ∀ front call behind, statement.items = front ++ .aggregation call :: behind →
    call.derived = if call.function = .avg then
        [⟨.count, call.argument, "AVG_DERIVED_COUNT_" ++ toString (front.countP Item.isAverage)⟩,
          ⟨.sum, call.argument, "AVG_DERIVED_SUM_" ++ toString (front.countP Item.isAverage)⟩]
      else []
  /-- A column of `ORDER BY` has its alias by the columns before it, and a position has none. -/
  orderBy : ∀ front key behind, statement.orderBy = front ++ key :: behind →
    key.aliasName = key.columnKey?.bind
      (statement.keyAlias "ORDER_BY_DERIVED_" (front.filterMap OrderKey.columnKey?))
  groupBy : ∀ front key behind, statement.groupBy = front ++ key :: behind →
    key.aliasName = statement.keyAlias "GROUP_BY_DERIVED_" front key
  /-- Behind the edits of names, one edit adds the fragments, if there are any. -/
  edits : ∃ names, (∀ edit ∈ names, ∃ offset name, edit = .tableName offset name) ∧
    statement.edits = names ++ if statement.fragments = [] then []
      else [.projection statement.projectionEnd statement.fragments]

theorem isCompleted_withDerivedColumns {parsed : Statement} (listed : parsed.IsListed)
    {items : List Item} {containsStar : Bool} (resolves : parsed.Resolves items containsStar)
    (names : ∀ edit ∈ parsed.edits, ∃ offset name, edit = .tableName offset name) :
    parsed.withDerivedColumns.IsCompleted where
  star := by
    rw [← Item.any_isStar_iff, any_isStar_withDerivedColumns, ← listed.star]
    rfl
  parts := fun front call behind split => by
    rw [Item.derived_splitAverages listed.underived split, Nat.zero_add]
    rfl
  orderBy := fun front key behind split => by
    cases key with
    | position => rfl
    | column key =>
      have columns := congrArg (List.filterMap OrderKey.columnKey?) split
      rw [orderBy_withDerivedColumns, List.filterMap_append,
        OrderKey.filterMap_columnKey?_cons] at columns
      exact aliasName_completed
        (fun key member => resolves.keys key (List.mem_append_left _ member)) columns
  groupBy := fun front key behind split =>
    aliasName_completed
      (fun key member => resolves.keys key (List.mem_append_right _ member))
      (groupBy_withDerivedColumns.symm.trans split)
  edits := by
    refine ⟨parsed.edits, names, ?_⟩
    rw [resolves.edits_eq, fragments_withDerivedColumns resolves listed,
      addedColumns_withDerivedColumns]
    simp only [List.map_eq_nil_iff]
    rfl

end Statement

theorem Query.Describes.isCompleted {query : Query} {dialect : Dialect} {text : String}
    {statement : Statement} (describes : query.Describes dialect text statement)
    (plain : dialect.IsPlain) : statement.IsCompleted := by
  obtain ⟨parsed, _, _, rfl, listed, resolves, edits⟩ := describes.exists_listed plain
  refine Statement.isCompleted_withDerivedColumns listed resolves fun edit member => ?_
  rw [edits] at member
  obtain ⟨token, _, rfl⟩ := List.mem_map.mp member
  exact ⟨_, _, rfl⟩

namespace Statement

/-- **The derived columns are exact.** Every average has its two parts, numbered by the averages
before it. Without a star every column among the keys has an alias, which is numbered where the
projection list gives none; with a star none has, and no position has one ever. One edit adds the
parts that are not projected, in the order of the items, and behind them the columns of the keys that
were numbered; it is left out when nothing is missing. -/
theorem derived_exactly {dialect : Dialect} (shipped : dialect ∈ Dialect.shipped) {text : String}
    {statement : Statement} (accepted : ofText dialect text = .ok statement) :
    statement.IsCompleted := by
  have plain := Dialect.isPlain_of_shipped shipped
  obtain ⟨query, describes⟩ := exists_query plain accepted
  exact describes.isCompleted plain

/-- A part that is projected in lower case is not added, and of the keys the one that is not
projected. -/
theorem derived_exactly_of_sum :
    let text := "SELECT AVG(a), SUM(a) AS avg_derived_sum_0, b AS x FROM t ORDER BY b, e, 1"
    Dialect.generic ∈ Dialect.shipped ∧ ∃ statement, ofText .generic text = .ok statement ∧
      statement.fragments = ["COUNT(a) AS AVG_DERIVED_COUNT_0", "e AS ORDER_BY_DERIVED_0"] ∧
      statement.IsCompleted := by
  have shipped : Dialect.generic ∈ Dialect.shipped := by simp [Dialect.shipped]
  obtain ⟨statement, accepted, fragments⟩ : ∃ statement,
      ofText .generic "SELECT AVG(a), SUM(a) AS avg_derived_sum_0, b AS x FROM t ORDER BY b, e, 1" =
        .ok statement ∧
      statement.fragments = ["COUNT(a) AS AVG_DERIVED_COUNT_0", "e AS ORDER_BY_DERIVED_0"] :=
    ⟨{  items := [
          .aggregation ⟨.avg, "(a)", none, 1,
            [⟨.count, "(a)", "AVG_DERIVED_COUNT_0"⟩, ⟨.sum, "(a)", "AVG_DERIVED_SUM_0"⟩]⟩,
          .aggregation ⟨.sum, "(a)", some "avg_derived_sum_0", 2, []⟩, .plain "b" (some "x")]
        tables := [⟨"t", none⟩]
        orderBy := [.column ⟨none, "b", .ascending, some "x"⟩,
          .column ⟨none, "e", .ascending, some "ORDER_BY_DERIVED_0"⟩, .position 1 .ascending]
        projectionEnd := 51
        edits := [.tableName 56 "t", .projection 51
          ["COUNT(a) AS AVG_DERIVED_COUNT_0", "e AS ORDER_BY_DERIVED_0"]] },
      by decide +kernel⟩
  exact ⟨shipped, statement, accepted, fragments, derived_exactly shipped accepted⟩

end Statement

end SelectRouting
