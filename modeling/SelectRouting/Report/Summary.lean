import SelectRouting.Report.Document

/-!
# Reports

The result of an analysis for a reader, as lines of text or as a document.
-/

namespace SelectRouting

/-- The result of an analysis under the dialect of a name, with the query for a shard when routes
were given. -/
structure Report where
  dialect : String
  statement : Statement
  shardQuery : Option String := none

namespace Report

/-- The text filled up with spaces to a width. -/
def pad (width : Nat) (text : String) : String :=
  String.ofList (text.toList ++ List.replicate (width - text.length) ' ')

/-- The alias behind a name, if there is one. -/
def aliasSuffix : Option String → String
  | some aliasName => " AS " ++ aliasName
  | none => ""

/-- The word for the kind of an item. -/
def itemKind : Item → String
  | .star _ => "star"
  | .aggregation _ => "aggregation"
  | .plain _ _ => "plain"

/-- The lines of an item: itself and the columns derived from it. -/
def itemLines (item : Item) : List String :=
  let derived :=
    match item with
    | .aggregation call => call.derived
    | _ => []
  ("  " ++ pad 12 (itemKind item) ++ item.expression ++ aliasSuffix item.aliasName) ::
    derived.map fun column => "    derived   " ++ column.expression ++ " AS " ++ column.aliasName

/-- The line of a key. -/
def keyLine (clause target : String) (direction : Direction) (aliasName : Option String) : String :=
  let name := aliasName.getD "-"
  s!"{clause}: {target} {direction.spelling} (alias {name})"

/-- The line of a key of `ORDER BY`. -/
def orderLine : OrderKey → String
  | .column key => keyLine "order by" key.qualifiedName key.direction key.aliasName
  | .position index direction => keyLine "order by" s!"#{index}" direction none

/-- The text of an operand of a row limit. -/
def limitText : Option LimitValue → String
  | some (.literal value) => toString value
  | some (.parameter index) => s!"?{index}"
  | none => "-"

/-- The line of an edit. -/
def editLine : Edit → String
  | .tableName offset text => "  @" ++ pad 5 (toString offset) ++ " table  " ++ text
  | .projection offset columns =>
    "  @" ++ pad 5 (toString offset) ++ " insert " ++ ", ".intercalate columns

/-- The lines of a report. -/
def lines (report : Report) : List String :=
  let statement := report.statement
  [s!"dialect: {report.dialect}", s!"distinct: {statement.distinct}", "items:"] ++
    statement.items.flatMap itemLines ++ ["tables:"] ++
    statement.tables.map (fun table => "  " ++ table.name ++ aliasSuffix table.aliasName) ++
    statement.groupBy.map
      (fun key => keyLine "group by" key.qualifiedName key.direction key.aliasName) ++
    statement.orderBy.map orderLine ++
    statement.limit.toList.map
      (fun limit =>
        s!"limit: offset {limitText limit.offset} row count {limitText limit.rowCount}") ++
    [s!"parameters before ORDER BY: {statement.parameters}", "rewrite tokens:"] ++
    statement.edits.map editLine ++
    report.shardQuery.toList.map (fun query => "rewritten: " ++ query)

/-- The report as text. -/
def toText (report : Report) : String :=
  String.join (report.lines.map fun line => line ++ "\n")

/-- The report as a document. -/
def toJson (report : Report) : Json :=
  .object <|
    [("dialect", .string report.dialect), ("statement", report.statement.toJson)] ++
      report.shardQuery.toList.map fun query => ("rewritten", .string query)

end Report

end SelectRouting
