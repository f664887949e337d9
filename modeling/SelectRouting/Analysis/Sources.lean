import SelectRouting.Analysis.State
import SelectRouting.Scan.Alias
import SelectRouting.Scan.Join

/-!
# The tables of a query

The `FROM` clause: tables and the joins between them.
-/

namespace SelectRouting.AnalysisStep
open Scan

/-- Reads a table and its alias. A table that is named with its schema is not routed. -/
def source : AnalysisStep Unit := do
  let token ← look (·.current)
  match token.kind with
  | .identifier _ =>
    advance
    if ← skipSymbol .dot then
      let table ← look (·.lexeme)
      advance
      let _ ← aliasName
      warn (.schemaQualified token.lexeme table)
    else
      addEdit (.tableName token.start token.lexeme)
      let aliasName ← aliasName
      change fun statement =>
        { statement with
          tables := statement.tables ++ [{ name := Text.stripQuotes token.lexeme, aliasName }] }
  | .symbol .leftParen => throw (.subquery token.span)
  | _ => fail .tableName

/-- Reads one side of an equation of two tables. A column whose owner is a table of the statement
gives an edit. -/
def joinSide : AnalysisStep Unit := do
  let (side, _) ← reading ExprStep.comparand
  match side with
  | .property owner _ => addOwnerEdit owner
  | _ => pure ()

/-- Reads an equation of a join condition, and says whether another one follows. -/
def joinEquation : AnalysisStep Bool := do
  joinSide
  expectSymbol .eq
  joinSide
  skipKeyword .AND

/-- Reads a join operator, a table and the condition of the join, if a join operator stands here. -/
def joinRound : AnalysisStep Bool := do
  if ← join then
    source
    if ← skipKeyword .ON then Step.whileTrue joinEquation
    else if ← skipKeyword .USING then
      let _ ← group
    return true
  else return false

/-- Reads the tables of the `FROM` clause. -/
def sources : AnalysisStep Unit := do
  source
  Step.whileTrue joinRound

end SelectRouting.AnalysisStep
