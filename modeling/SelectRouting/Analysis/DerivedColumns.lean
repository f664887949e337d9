import SelectRouting.Statement
import SelectRouting.Text.Case

/-!
# Derived columns

The averages of shards do not combine, but their counts and sums do; and rows can be merged by a key
only when the key is among their columns. The columns that a query lacks for that are added at the
end of its projection list, each under an alias of its own.
-/

namespace SelectRouting

/-- The columns that an average is combined from, for the average with `before` others before it. -/
def Aggregation.parts (call : Aggregation) (before : Nat) : List DerivedColumn :=
  [{ function := .count, argument := call.argument, aliasName := s!"AVG_DERIVED_COUNT_{before}" },
    { function := .sum, argument := call.argument, aliasName := s!"AVG_DERIVED_SUM_{before}" }]

/-- The item with the parts of its average, if it is one, and the number of averages up to it. -/
def Item.splitAverage (before : Nat) : Item → Item × Nat
  | .aggregation call =>
    if call.function == .avg then
      (.aggregation { call with derived := call.parts before }, before + 1)
    else (.aggregation call, before)
  | item => (item, before)

/-- The items with the parts of each average, `before` averages standing before them. -/
def Item.splitAverages (before : Nat) : List Item → List Item
  | [] => []
  | item :: items =>
    let (split, next) := item.splitAverage before
    split :: splitAverages next items

/-- The parts of the averages among the items, `before` averages standing before them. -/
def Item.averageParts (before : Nat) : List Item → List DerivedColumn
  | [] => []
  | .aggregation call :: items =>
    if call.function == .avg then call.parts before ++ averageParts (before + 1) items
    else averageParts before items
  | _ :: items => averageParts before items

/-- A column under an alias. -/
def aliased (expression aliasName : String) : String :=
  expression ++ " AS " ++ aliasName

/-- The key under a derived alias when it has none yet, and the column that it then needs. -/
def ColumnKey.derive (stem : String) (number : Nat) (key : ColumnKey) :
    ColumnKey × Option String :=
  match key.aliasName with
  | some _ => (key, none)
  | none =>
    let aliasName := s!"{stem}{number}"
    ({ key with aliasName := some aliasName }, some (aliased key.qualifiedName aliasName))

/-- The keys of `GROUP BY` with an alias each, and the columns that they need. The derived aliases
are numbered from `number` on. -/
def ColumnKey.deriveAll (stem : String) (number : Nat) :
    List ColumnKey → List ColumnKey × List String
  | [] => ([], [])
  | key :: keys =>
    let (key, added) := key.derive stem number
    let (keys, columns) := deriveAll stem (if added.isSome then number + 1 else number) keys
    (key :: keys, added.toList ++ columns)

/-- The keys of `ORDER BY` with an alias for each column, and the columns that they need. -/
def OrderKey.deriveAll (stem : String) (number : Nat) : List OrderKey → List OrderKey × List String
  | [] => ([], [])
  | .column key :: keys =>
    let (key, added) := key.derive stem number
    let (keys, columns) := deriveAll stem (if added.isSome then number + 1 else number) keys
    (.column key :: keys, added.toList ++ columns)
  | key :: keys =>
    let (keys, columns) := deriveAll stem number keys
    (key :: keys, columns)

namespace Statement

/-- The aliases of the projection list in upper case. -/
def projectedAliases (statement : Statement) : List String :=
  (statement.items.filterMap Item.aliasName).map Text.upper

/-- The columns for the averages, without those that the list has already. -/
def averageColumns (statement : Statement) : List String :=
  (Item.averageParts 0 statement.items).filterMap fun column =>
    if statement.projectedAliases.contains column.aliasName then none
    else some (aliased column.expression column.aliasName)

/-- The statement with all derived columns: averages are split, keys without an alias get one, and
one edit adds the columns that are missing. Keys of a list that contains all columns need none. -/
def withDerivedColumns (statement : Statement) : Statement :=
  let (orderBy, orderColumns) :=
    if statement.containsStar then (statement.orderBy, [])
    else OrderKey.deriveAll "ORDER_BY_DERIVED_" 0 statement.orderBy
  let (groupBy, groupColumns) :=
    if statement.containsStar then (statement.groupBy, [])
    else ColumnKey.deriveAll "GROUP_BY_DERIVED_" 0 statement.groupBy
  let columns := statement.averageColumns ++ orderColumns ++ groupColumns
  let edits :=
    if columns.isEmpty then statement.edits
    else statement.edits ++ [.projection statement.projectionEnd columns]
  { statement with items := Item.splitAverages 0 statement.items, orderBy, groupBy, edits }

@[simp] theorem tables_withDerivedColumns (statement : Statement) :
    statement.withDerivedColumns.tables = statement.tables := rfl

@[simp] theorem parameters_withDerivedColumns (statement : Statement) :
    statement.withDerivedColumns.parameters = statement.parameters := rfl

@[simp] theorem limit_withDerivedColumns (statement : Statement) :
    statement.withDerivedColumns.limit = statement.limit := rfl

end Statement

end SelectRouting
