import SelectRouting.Analysis.State
import SelectRouting.Dialect

/-!
# Grouping and ordering

The keys of `GROUP BY` and `ORDER BY`. A key is found among the projection items by its text; the
alias that is found there is how the rows of the shards will be compared.
-/

namespace SelectRouting

/-- The alias under which a column is projected. The first item decides whose expression is the
column, which then has the alias of the item if it has one, or whose alias is the column. Nothing is
known of a list that contains all columns. -/
def Statement.aliasOf? (statement : Statement) (name : String) : Option String :=
  if statement.containsStar then none
  else
    let name := Text.stripQuotes name
    (statement.items.findSome? fun item =>
      if Text.sameIgnoringCase (Text.stripQuotes item.expression) name then some item.aliasName
      else if item.aliasName.any (Text.sameIgnoringCase · name) then some (some name)
      else none).join

namespace AnalysisStep
open Scan

/-- Reads a direction; without one the direction is ascending. -/
def direction : Scan Direction := do
  if ← skipKeyword .DESC then return .descending
  let _ ← skipKeyword .ASC
  return .ascending

/-- The key of a column, and the alias under which the statement projects it. -/
def columnKey (owner : Option Name) (name : Name) (direction : Direction) :
    AnalysisStep ColumnKey := do
  let key : ColumnKey :=
    { owner := owner.map Name.value, name := name.value, direction, aliasName := none }
  return { key with aliasName := ← statement (·.aliasOf? key.qualifiedName) }

/-- Reads an expression and a direction; the text of the expression is the last component. -/
def keyItem : AnalysisStep (Expr × Direction × String) := do
  let start ← look (·.start)
  let expr ← expressionWithEdits
  let text ← look fun cursor => cursor.source ⟨start, cursor.previous.stop⟩
  return (expr, ← direction, text)

/-- Reads an item of `ORDER BY`. An item that is neither a column nor a position is dropped. -/
def orderItem : AnalysisStep (Option OrderKey) := do
  let (expr, direction, text) ← keyItem
  match expr with
  | .number (index + 1) => return some (.position (index + 1) direction)
  | .identifier name => return some (.column (← columnKey none name direction))
  | .property owner name => return some (.column (← columnKey (some owner) name direction))
  | _ =>
    warn (.orderItemDropped text)
    return none

/-- Passes the placement of nulls, if one stands here. -/
def nullsPlacement : Scan Unit := do
  if ← skipWhen (·.atWord? "NULLS") then
    unless ← skipWhen fun cursor => cursor.atWord? "FIRST" || cursor.atWord? "LAST" do
      fail .nullsPlacement

/-- Reads an item of `ORDER BY` with all that the dialect allows in it. -/
def dialectOrderItem (dialect : Dialect) : AnalysisStep (Option OrderKey) := do
  let key ← orderItem
  if dialect.nullsPlacement then nullsPlacement
  return key

/-- Reads an item of `ORDER BY` into the statement, and says whether another one follows. -/
def orderRound (dialect : Dialect) : AnalysisStep Bool := do
  if let some key ← dialectOrderItem dialect then
    change fun statement => { statement with orderBy := statement.orderBy ++ [key] }
  skipSymbol .comma

/-- Reads the `ORDER BY` clause, if one stands here. -/
def orderBy (dialect : Dialect) : AnalysisStep Unit := do
  if ← skipKeyword .ORDER then
    expectKeyword .BY
    Step.whileTrue (orderRound dialect)

/-- Reads an item of `GROUP BY`. An item that is no column is ignored. -/
def groupItem : AnalysisStep (Option ColumnKey) := do
  let (expr, direction, text) ← keyItem
  match expr with
  | .identifier name => return some (← columnKey none name direction)
  | .property owner name => return some (← columnKey (some owner) name direction)
  | _ =>
    warn (.groupItemIgnored text)
    return none

/-- Reads an item of `GROUP BY` into the statement, and says whether another one follows. -/
def groupRound : AnalysisStep Bool := do
  if let some key ← groupItem then
    change fun statement => { statement with groupBy := statement.groupBy ++ [key] }
  skipSymbol .comma

/-- Reads the `GROUP BY` and `HAVING` clauses that stand here, and passes the words that ask for
totals. -/
def groupBy : AnalysisStep Unit := do
  if ← skipKeyword .GROUP then
    expectKeyword .BY
    Step.whileTrue groupRound
    Step.whileTrue (skipAnyKeyword [.WITH, .ROLLUP] : Scan Bool)
  if ← skipKeyword .HAVING then
    let _ ← expressionWithEdits

end AnalysisStep

end SelectRouting
