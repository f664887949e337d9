import SelectRouting.Analysis.DerivedColumns
import SelectRouting.Analysis.Keys
import SelectRouting.Analysis.Projection
import SelectRouting.Analysis.RowLimit
import SelectRouting.Analysis.Sources

/-!
# Analysis of a query

The clauses are read in their fixed order, with the dialect asked at each corner on which databases
disagree; then the derived columns are added.
-/

namespace SelectRouting

namespace AnalysisStep
open Scan

/-- Reads the words behind `SELECT` that ask for distinct rows or for all rows. -/
def distinct (dialect : Dialect) : AnalysisStep Unit := do
  if ← skipAnyKeyword [.DISTINCT, .DISTINCTROW] then
    change fun statement => { statement with distinct := true }
    if dialect.distinctOn then
      if ← skipKeyword .ON then
        let _ ← group
  else
    let _ ← skipKeyword .ALL

/-- Reads the `WHERE` clause, if one stands here. A query without tables has nothing to route, and
so its condition is passed without a trace. -/
def condition : AnalysisStep Unit := do
  if (← statement (·.tables)).isEmpty then
    if ← skipKeyword .WHERE then
      let _ ← reading ExprStep.expression
  else
    if ← skipKeyword .WHERE then
      let _ ← expressionWithEdits
    let parameters ← look (·.parameters)
    change fun statement => { statement with parameters }

/-- Fails where a second query body begins. -/
def rejectSetOperation : Scan Unit := do
  let token ← look (·.current)
  match token.kind with
  | .keyword word => if word.isSetOperation then throw (.unsupported word token.span)
  | _ => pure ()

/-- Passes all tokens that are left. -/
def passAll : Scan Unit :=
  Step.whileTrue (skipWhen fun cursor => !cursor.atEnd)

/-- What the dialect does between `HAVING` and `ORDER BY`. -/
def bodyEnd (dialect : Dialect) : Scan Unit :=
  match dialect.bodyEnd with
  | .rejectSetOperation => rejectSetOperation
  | .passAll => passAll

/-- Reads a query from `SELECT` up to the end of its projection list. -/
def head (dialect : Dialect) : AnalysisStep Unit := do
  expectKeyword .SELECT
  distinct dialect
  projection dialect

/-- Reads a query from `SELECT` up to where `ORDER BY` may stand. -/
def body (dialect : Dialect) : AnalysisStep Unit := do
  head dialect
  if ← skipKeyword .FROM then sources
  condition
  groupBy
  bodyEnd dialect

/-- Reads a whole query and adds the derived columns to it. -/
def select (dialect : Dialect) : AnalysisStep Unit := do
  body dialect
  orderBy dialect
  trailingClauses dialect
  let _ ← skipSymbol .semicolon
  unless ← look (·.atEnd) do fail .endOfStatement
  change Statement.withDerivedColumns

end AnalysisStep

namespace Statement

/-- Analyses the query that begins at the cursor: the statement or the error, and the warnings in
either case. -/
def ofCursor (dialect : Dialect) (cursor : Cursor) : Except ParseError Statement × List Warning :=
  let (answer, state) := AnalysisStep.select dialect { cursor }
  (answer.map fun _ => state.statement, state.warnings)

/-- Analyses a query, and keeps the warnings. -/
def analyze (dialect : Dialect) (text : String) : Except ParseError Statement × List Warning :=
  match Cursor.ofText text with
  | .error error => (.error error, [])
  | .ok cursor => ofCursor dialect cursor

/-- The statement of a query. -/
def ofText (dialect : Dialect) (text : String) : Except ParseError Statement :=
  (analyze dialect text).1

end Statement

end SelectRouting
