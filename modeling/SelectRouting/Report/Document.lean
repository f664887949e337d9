import SelectRouting.Report.Json
import SelectRouting.Statement

/-!
# Statements as documents

The members of each document in the order of the format.
-/

namespace SelectRouting

/-- The direction as in a query. -/
def Direction.toJson (direction : Direction) : Json :=
  .string direction.spelling

/-- A derived column has the members of an aggregation, without a place in the list and without
columns of its own. -/
def DerivedColumn.toJson (column : DerivedColumn) : Json :=
  .object
    [("kind", .string column.function.spelling), ("inner_expression", .string column.argument),
      ("alias", .string column.aliasName), ("index", .null), ("derived", .array [])]

/-- The document of an item, its form first. -/
def Item.toJson : Item → Json
  | .star aliasName => .object [("type", .string "star"), ("alias", .ofString? aliasName)]
  | .aggregation call =>
    .object
      [("type", .string "aggregation"), ("kind", .string call.function.spelling),
        ("inner_expression", .string call.argument), ("alias", .ofString? call.aliasName),
        ("index", .number call.position),
        ("derived", .array (call.derived.map DerivedColumn.toJson))]
  | .plain expression aliasName =>
    .object
      [("type", .string "plain"), ("expression", .string expression),
        ("alias", .ofString? aliasName)]

/-- The document of a table. -/
def Table.toJson (table : Table) : Json :=
  .object [("name", .string table.name), ("alias", .ofString? table.aliasName)]

/-- The document of a key of `GROUP BY`. -/
def ColumnKey.toJson (key : ColumnKey) : Json :=
  .object
    [("owner", .ofString? key.owner), ("name", .string key.name),
      ("direction", key.direction.toJson), ("alias", .ofString? key.aliasName)]

/-- The document of a key of `ORDER BY`: a column has no position, and a position nothing else. -/
def OrderKey.toJson : OrderKey → Json
  | .column key =>
    .object
      [("owner", .ofString? key.owner), ("name", .string key.name), ("index", .null),
        ("direction", key.direction.toJson), ("alias", .ofString? key.aliasName)]
  | .position index direction =>
    .object
      [("owner", .null), ("name", .null), ("index", .number index),
        ("direction", direction.toJson), ("alias", .null)]

/-- The document of an operand of a row limit. -/
def LimitValue.toJson : LimitValue → Json
  | .literal value => .object [("type", .string "literal"), ("value", .number value)]
  | .parameter index => .object [("type", .string "parameter"), ("value", .number index)]

/-- The document of a row limit. -/
def Limit.toJson (limit : Limit) : Json :=
  .object
    [("offset", .ofOption LimitValue.toJson limit.offset),
      ("row_count", .ofOption LimitValue.toJson limit.rowCount)]

/-- The document of an edit. -/
def Edit.toJson : Edit → Json
  | .tableName offset text =>
    .object
      [("type", .string "table_name"), ("offset", .number offset), ("original_text", .string text)]
  | .projection offset columns =>
    .object
      [("type", .string "projection_insert"), ("offset", .number offset),
        ("items", .array (columns.map .string))]

/-- The document of a statement. -/
def Statement.toJson (statement : Statement) : Json :=
  .object
    [("distinct", .bool statement.distinct),
      ("items", .array (statement.items.map Item.toJson)),
      ("tables", .array (statement.tables.map Table.toJson)),
      ("group_by", .array (statement.groupBy.map ColumnKey.toJson)),
      ("order_by", .array (statement.orderBy.map OrderKey.toJson)),
      ("contains_star", .bool statement.containsStar),
      ("select_list_last_position", .number statement.projectionEnd),
      ("parameters_index", .number statement.parameters),
      ("limit", .ofOption Limit.toJson statement.limit),
      ("tokens", .array (statement.edits.map Edit.toJson))]

end SelectRouting
