import SelectRouting.Expr.Parser
import SelectRouting.Statement

/-!
# The state of an analysis

The clause readers fill in a statement while they move the cursor, and note what they had to leave
out of it.
-/

namespace SelectRouting

/-- Something that was left out of the result without being an error. -/
inductive Warning where
  /-- An item of `ORDER BY` that is neither a column nor a position. -/
  | orderItemDropped (item : String)
  /-- An item of `GROUP BY` that is no column. -/
  | groupItemIgnored (item : String)
  /-- A table that is named with its schema. -/
  | schemaQualified (schema table : String)
  /-- An edit whose table name does not stand in the text, or that overlaps another edit. -/
  | mismatchedTable (offset : Nat) (text : String)
  /-- An insertion inside another edit or at no place of the text. -/
  | misplacedInsertion (offset : Nat)
deriving DecidableEq

/-- The wording of the warning. -/
def Warning.message : Warning → String
  | .orderItemDropped _ => "ORDER BY item is not a column or position; dropped"
  | .groupItemIgnored _ => "GROUP BY item is not a column; ignored"
  | .schemaQualified _ _ => "schema-qualified table is not routed"
  | .mismatchedTable _ _ => "table token does not match the original text; skipping"
  | .misplacedInsertion _ => "insert token out of order; skipping"

/-- The cursor, the statement so far, and the warnings in the order in which they arose. -/
structure Analysis where
  cursor : Cursor
  statement : Statement := {}
  warnings : List Warning := []

instance : HasCursor Analysis where
  cursor := Analysis.cursor
  setCursor cursor state := { state with cursor }

/-- A step of a clause reader. -/
abbrev AnalysisStep := Step Analysis

/-- The first table of a name, ignoring the case of ASCII letters. -/
def Statement.findTable? (statement : Statement) (name : String) : Option Table :=
  statement.tables.find? fun table => Text.sameIgnoringCase table.name name

namespace AnalysisStep

/-- The value of a property of the statement. -/
def statement {α : Type} (property : Statement → α) : AnalysisStep α :=
  return property (← getThe Analysis).statement

/-- Changes the statement. -/
def change (update : Statement → Statement) : AnalysisStep Unit :=
  modifyThe Analysis fun state => { state with statement := update state.statement }

/-- Records an edit. -/
def addEdit (edit : Edit) : AnalysisStep Unit :=
  change fun statement => { statement with edits := statement.edits ++ [edit] }

/-- Notes a warning. -/
def warn (warning : Warning) : AnalysisStep Unit :=
  modifyThe Analysis fun state => { state with warnings := state.warnings ++ [warning] }

/-- Records the edit of a column's owner when the owner is a table of the statement. -/
def addOwnerEdit (owner : Name) : AnalysisStep Unit := do
  if (← statement (·.findTable? owner.value)).isSome then
    addEdit (.tableName owner.start owner.written)

/-- A reader of expressions run from the cursor on: its answer and the qualifiers that it met. When
it fails, the qualifiers are lost. -/
def reading {α : Type} (reader : ExprStep α) : AnalysisStep (α × List Name) := fun state =>
  let (answer, inner) := reader { cursor := state.cursor }
  (answer.map fun value => (value, inner.qualifiers), { state with cursor := inner.cursor })

/-- Reads an expression, and records an edit for each qualifier in it that is a table of the
statement. -/
def expressionWithEdits : AnalysisStep Expr := do
  let (expr, qualifiers) ← reading ExprStep.expression
  qualifiers.forM addOwnerEdit
  return expr

end AnalysisStep

end SelectRouting
