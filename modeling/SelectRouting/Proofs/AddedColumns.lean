import Mathlib.Data.List.Basic
import SelectRouting.Proofs.EditPlacement

/-!
# Which columns are added

The insertion adds the parts of the averages that are not projected yet, and the columns of the keys
that have no alias in the projection list (`Statement.addedColumns`). What is added can be told from
the statement as it is answered, in which the averages are split and every key has its alias
(`Query.Describes.edits_eq`).
-/

namespace SelectRouting

/-- A column as a key names it. -/
structure Column where
  owner : Option String
  name : String
deriving DecidableEq

/-- The column as text. -/
def Column.text (column : Column) : String :=
  match column.owner with
  | some owner => owner ++ "." ++ column.name
  | none => column.name

/-- The column of a key. -/
def ColumnKey.column (key : ColumnKey) : Column :=
  ⟨key.owner, key.name⟩

@[simp] theorem ColumnKey.text_column (key : ColumnKey) : key.column.text = key.qualifiedName := rfl

/-- A column that is added to the projection list. -/
inductive AddedColumn where
  /-- A part of an average. -/
  | part (column : DerivedColumn)
  /-- The column of a key. -/
  | key (column : Column) (aliasName : String)
deriving DecidableEq

namespace AddedColumn

/-- The column with its alias. -/
def text : AddedColumn → String
  | part column => aliased column.expression column.aliasName
  | key column aliasName => aliased column.text aliasName

/-- The columns of keys under aliases that are numbered from `number` on. -/
def numbered (stem : String) (number : Nat) (columns : List Column) : List AddedColumn :=
  (columns.zipIdx number).map fun (column, number) => key column (stem ++ toString number)

@[simp] theorem numbered_nil (stem : String) (number : Nat) : numbered stem number [] = [] := rfl

@[simp] theorem numbered_cons (stem : String) (number : Nat) (column : Column)
    (columns : List Column) : numbered stem number (column :: columns) =
      key column (stem ++ toString number) :: numbered stem (number + 1) columns := rfl

end AddedColumn

section Keys
variable (stem : String) (number : Nat)

/-- The keys that have no alias get their columns added. -/
theorem ColumnKey.deriveAll_columns (keys : List ColumnKey) : (deriveAll stem number keys).2 =
    (AddedColumn.numbered stem number
      ((keys.filter fun key => key.aliasName.isNone).map ColumnKey.column)).map AddedColumn.text := by
  induction keys generalizing number with
  | nil => rfl
  | cons key keys ih =>
    cases given : key.aliasName with
    | some aliasName => simp [deriveAll, derive, given, ih]
    | none =>
      have first : key.derive stem number = ({ key with aliasName := some s!"{stem}{number}" },
          some (AddedColumn.key key.column (stem ++ toString number)).text) := by
        rw [derive, given]
        rfl
      have more := ih (number + 1)
      rw [List.filter_cons_of_pos (by rw [given, Option.isNone_none]), List.map_cons,
        AddedColumn.numbered_cons, List.map_cons, ← more]
      simp [deriveAll, first]

/-- A derived alias leaves the columns of the keys alone. -/
theorem ColumnKey.deriveAll_keys (keys : List ColumnKey) :
    (deriveAll stem number keys).1.map ColumnKey.column = keys.map ColumnKey.column := by
  induction keys generalizing number with
  | nil => rfl
  | cons key keys ih =>
    cases given : key.aliasName with
    | some aliasName => simp [deriveAll, derive, given, ih]
    | none => simp [deriveAll, derive, given, ih, ColumnKey.column]

theorem OrderKey.filterMap_columnKey?_cons (key : ColumnKey) (keys : List OrderKey) :
    (column key :: keys).filterMap columnKey? = key :: keys.filterMap columnKey? := rfl

/-- Of the keys of `ORDER BY`, only the columns take part. -/
theorem OrderKey.deriveAll_columns (keys : List OrderKey) : (deriveAll stem number keys).2 =
    (ColumnKey.deriveAll stem number (keys.filterMap columnKey?)).2 := by
  induction keys generalizing number with
  | nil => rfl
  | cons key keys ih =>
    cases key with
    | column key =>
      rw [filterMap_columnKey?_cons]
      simp [deriveAll, ColumnKey.deriveAll, ih]
    | position index direction =>
      rw [List.filterMap_cons_none rfl, ← ih]
      rfl

theorem OrderKey.deriveAll_keys (keys : List OrderKey) :
    (deriveAll stem number keys).1.filterMap columnKey? =
      (ColumnKey.deriveAll stem number (keys.filterMap columnKey?)).1 := by
  induction keys generalizing number with
  | nil => rfl
  | cons key keys ih =>
    cases key with
    | column key =>
      rw [filterMap_columnKey?_cons]
      simp [deriveAll, ColumnKey.deriveAll, columnKey?, ih]
    | position index direction =>
      rw [List.filterMap_cons_none rfl, ← ih]
      rfl

end Keys

namespace Item

/-- What an item is looked up by: its expression and its alias. -/
def face (item : Item) : String × Option String :=
  (item.expression, item.aliasName)

/-- The alias that an item tells for a column: its own, if its expression is the column, and the
column, if that is its alias. Of another column it tells nothing. -/
def aliasTold? (name : String) (face : String × Option String) : Option (Option String) :=
  if Text.sameIgnoringCase (Text.stripQuotes face.1) (Text.stripQuotes name) then some face.2
  else if face.2.any (Text.sameIgnoringCase · (Text.stripQuotes name)) then
    some (some (Text.stripQuotes name))
  else none

theorem face_splitAverage (before : Nat) (item : Item) :
    (item.splitAverage before).1.face = item.face := by
  unfold splitAverage
  split
  · split <;> rfl
  · rfl

/-- Items are looked up with their averages split as without. -/
theorem map_face_splitAverages (before : Nat) (items : List Item) :
    (splitAverages before items).map face = items.map face := by
  induction items generalizing before with
  | nil => rfl
  | cons item items ih => simp [splitAverages, face_splitAverage, ih]

/-- The parts of an average that is split already are the same. -/
theorem averageParts_splitAverages (before : Nat) (items : List Item) :
    averageParts before (splitAverages before items) = averageParts before items := by
  induction items generalizing before with
  | nil => rfl
  | cons item items ih =>
    cases item with
    | aggregation call =>
      cases function : call.function <;>
        simp [splitAverages, splitAverage, averageParts, function, Aggregation.parts, ih]
    | _ => simp [splitAverages, splitAverage, averageParts, ih]

end Item

namespace Statement

/-- The first item that tells something of a column decides on its alias. -/
theorem aliasOf?_eq (statement : Statement) (name : String) : statement.aliasOf? name =
    if statement.containsStar then none
    else ((statement.items.map Item.face).findSome? (Item.aliasTold? name)).join := by
  simp only [aliasOf?, List.findSome?_map, Function.comp_def, Item.aliasTold?, Item.face]
  rfl

theorem projectedAliases_eq (statement : Statement) : statement.projectedAliases =
    ((statement.items.map Item.face).filterMap Prod.snd).map Text.upper := by
  rw [List.filterMap_map]
  rfl

/-- The columns among the keys of `ORDER BY`. -/
def orderColumns (statement : Statement) : List Column :=
  (statement.orderBy.filterMap OrderKey.columnKey?).map ColumnKey.column

/-- The columns among the keys of `GROUP BY`. -/
def groupColumns (statement : Statement) : List Column :=
  statement.groupBy.map ColumnKey.column

/-- The columns for which the projection list gives no alias. -/
def unprojected (statement : Statement) (columns : List Column) : List Column :=
  columns.filter fun column => (statement.aliasOf? column.text).isNone

/-- The parts of the averages that are not projected. -/
def addedParts (statement : Statement) : List DerivedColumn :=
  (Item.averageParts 0 statement.items).filter fun part =>
    !statement.projectedAliases.contains part.aliasName

/-- The columns of the keys that are added. A list that contains all columns needs none. -/
def addedKeys (statement : Statement) : List AddedColumn :=
  if statement.containsStar then []
  else
    AddedColumn.numbered "ORDER_BY_DERIVED_" 0 (statement.unprojected statement.orderColumns) ++
      AddedColumn.numbered "GROUP_BY_DERIVED_" 0 (statement.unprojected statement.groupColumns)

/-- The columns that are added to the projection list. -/
def addedColumns (statement : Statement) : List AddedColumn :=
  statement.addedParts.map .part ++ statement.addedKeys

section Added
variable {statement : Statement}

theorem part_notMem_addedKeys {part : DerivedColumn} : .part part ∉ statement.addedKeys := by
  unfold addedKeys
  split <;> simp [AddedColumn.numbered]

theorem part_mem_addedColumns {part : DerivedColumn} :
    .part part ∈ statement.addedColumns ↔ part ∈ statement.addedParts := by
  rw [addedColumns, List.mem_append, or_iff_left part_notMem_addedKeys]
  simp

theorem key_mem_addedColumns {column : Column} {aliasName : String} :
    .key column aliasName ∈ statement.addedColumns ↔ .key column aliasName ∈ statement.addedKeys := by
  rw [addedColumns, List.mem_append, or_iff_right (by simp)]

end Added

section Derived
variable (parsed : Statement)

theorem averageColumns_eq : parsed.averageColumns =
    (parsed.addedParts.map AddedColumn.part).map AddedColumn.text := by
  unfold averageColumns addedParts
  induction Item.averageParts 0 parsed.items with
  | nil => rfl
  | cons part parts ih =>
    rw [List.filterMap_cons, List.filter_cons, ih]
    cases parsed.projectedAliases.contains part.aliasName <;> rfl

theorem aliasOf?_withDerivedColumns (name : String) :
    parsed.withDerivedColumns.aliasOf? name = parsed.aliasOf? name := by
  rw [aliasOf?_eq, aliasOf?_eq]
  change (if parsed.containsStar = true then none else (List.findSome? _
    (List.map Item.face (Item.splitAverages 0 parsed.items))).join) = _
  rw [Item.map_face_splitAverages]

theorem addedParts_withDerivedColumns :
    parsed.withDerivedColumns.addedParts = parsed.addedParts := by
  have aliases : parsed.withDerivedColumns.projectedAliases = parsed.projectedAliases := by
    rw [projectedAliases_eq, projectedAliases_eq]
    change ((List.map Item.face (Item.splitAverages 0 parsed.items)).filterMap Prod.snd).map _ = _
    rw [Item.map_face_splitAverages]
  unfold addedParts
  rw [aliases]
  change List.filter _ (Item.averageParts 0 (Item.splitAverages 0 parsed.items)) = _
  rw [Item.averageParts_splitAverages]

theorem orderColumns_withDerivedColumns :
    parsed.withDerivedColumns.orderColumns = parsed.orderColumns := by
  unfold orderColumns withDerivedColumns
  dsimp only
  split
  · rfl
  · rw [OrderKey.deriveAll_keys, ColumnKey.deriveAll_keys]

theorem groupColumns_withDerivedColumns :
    parsed.withDerivedColumns.groupColumns = parsed.groupColumns := by
  unfold groupColumns withDerivedColumns
  dsimp only
  split
  · rfl
  · rw [ColumnKey.deriveAll_keys]

theorem addedColumns_withDerivedColumns :
    parsed.withDerivedColumns.addedColumns = parsed.addedColumns := by
  have columns (keys : List Column) :
      parsed.withDerivedColumns.unprojected keys = parsed.unprojected keys := by
    unfold unprojected
    simp only [aliasOf?_withDerivedColumns]
  unfold addedColumns addedKeys
  rw [addedParts_withDerivedColumns, orderColumns_withDerivedColumns, columns,
    groupColumns_withDerivedColumns, columns]
  rfl

variable {parsed}

/-- The keys without an alias are those for whose columns the items give none. -/
theorem Resolves.filter_eq {items : List Item} {containsStar : Bool}
    (resolves : parsed.Resolves items containsStar) {keys : List ColumnKey}
    (among : keys ⊆ parsed.columnKeys) :
    (keys.filter fun key => key.aliasName.isNone).map ColumnKey.column =
      parsed.unprojected (keys.map ColumnKey.column) := by
  unfold unprojected
  rw [List.filter_map]
  refine congrArg _ (List.filter_congr fun key member => ?_)
  rw [resolves.keys key (among member)]
  rfl

/-- One edit adds the columns that are missing. -/
theorem Resolves.edits_eq {items : List Item} {containsStar : Bool}
    (resolves : parsed.Resolves items containsStar) : parsed.withDerivedColumns.edits =
      parsed.edits ++ if parsed.addedColumns = [] then [] else
        [.projection parsed.projectionEnd (parsed.addedColumns.map AddedColumn.text)] := by
  have columns : parsed.averageColumns ++
      (if parsed.containsStar then (parsed.orderBy, [])
        else OrderKey.deriveAll "ORDER_BY_DERIVED_" 0 parsed.orderBy).2 ++
      (if parsed.containsStar then (parsed.groupBy, [])
        else ColumnKey.deriveAll "GROUP_BY_DERIVED_" 0 parsed.groupBy).2 =
      parsed.addedColumns.map AddedColumn.text := by
    unfold addedColumns addedKeys
    rw [averageColumns_eq, List.map_append, List.append_assoc]
    by_cases star : parsed.containsStar = true
    · simp only [if_pos star, List.map_nil, List.append_nil]
    · have ordered := resolves.filter_eq
        (List.subset_append_left (parsed.orderBy.filterMap OrderKey.columnKey?) parsed.groupBy)
      have grouped := resolves.filter_eq
        (List.subset_append_right (parsed.orderBy.filterMap OrderKey.columnKey?) parsed.groupBy)
      rw [if_neg star, if_neg star, if_neg star, OrderKey.deriveAll_columns,
        ColumnKey.deriveAll_columns, ColumnKey.deriveAll_columns, ordered, grouped, List.map_append]
      rfl
  have whole : parsed.withDerivedColumns.edits =
      if (parsed.addedColumns.map AddedColumn.text).isEmpty then parsed.edits
      else parsed.edits ++
        [.projection parsed.projectionEnd (parsed.addedColumns.map AddedColumn.text)] := by
    rw [← columns]
    rfl
  rw [whole, List.isEmpty_map]
  by_cases none : parsed.addedColumns = []
  · rw [if_pos none, none, List.isEmpty_nil, if_pos rfl, List.append_nil]
  · rw [if_neg none, if_neg (by simpa using none)]

end Derived

end Statement

/-- The insertion adds the columns that the statement needs, where the projection list ends. -/
def Statement.insertions (statement : Statement) : List Edit :=
  if statement.addedColumns = [] then []
  else [.projection statement.projectionEnd (statement.addedColumns.map AddedColumn.text)]

namespace Query.Describes
variable {query : Query} {dialect : Dialect} {text : String} {statement : Statement}

/-- The edits are those of the anchors and, behind them, the insertion. -/
theorem edits_eq (describes : query.Describes dialect text statement) :
    statement.edits = query.anchors.map Token.edit ++ statement.insertions := by
  obtain ⟨parsed, rfl, edits, _, _, _, _, resolves⟩ := describes.derived
  rw [resolves.edits_eq, edits, Statement.insertions, Statement.addedColumns_withDerivedColumns]
  rfl

/-- Columns are added when some are missing, where the projection list ends. -/
theorem projection_mem_edits (describes : query.Describes dialect text statement) {offset : Nat}
    {columns : List String} : .projection offset columns ∈ statement.edits ↔
      statement.addedColumns ≠ [] ∧ offset = statement.projectionEnd ∧
        columns = statement.addedColumns.map AddedColumn.text := by
  have noAnchor : .projection offset columns ∉ query.anchors.map Token.edit := by simp [Token.edit]
  rw [describes.edits_eq, List.mem_append, or_iff_right noAnchor, Statement.insertions]
  split <;> simp_all

end Query.Describes

end SelectRouting
