import SelectRouting.Analysis.State
import SelectRouting.Dialect

/-!
# Row limits and locking reads

What a dialect allows behind the `ORDER BY` clause.
-/

namespace SelectRouting

namespace Scan

/-- Reads an operand of a row limit: an integer or a placeholder. -/
def limitValue : Scan LimitValue := do
  match ← look (·.kind) with
  | .integer value =>
    advance
    return .literal value
  | .symbol .question => return .parameter (← parameter)
  | _ => fail .rowCount

/-- Reads a `LIMIT` clause, if one stands here: the row count, with the offset before a comma or
behind `OFFSET`. -/
def limitClause : Scan (Option Limit) := do
  if ← skipKeyword .LIMIT then
    let first ← limitValue
    if ← skipSymbol .comma then
      return some { offset := some first, rowCount := some (← limitValue) }
    else if ← skipKeyword .OFFSET then
      return some { offset := some (← limitValue), rowCount := some first }
    else return some { rowCount := some first }
  else return none

/-- Passes a word that is no keyword, which is required. -/
def expectWord (word : String) : Scan Unit := do
  unless ← skipWhen (·.atWord? word) do fail (.word word)

/-- Passes a locking read, if one stands here. -/
def lockingRead : Scan Unit := do
  if ← skipKeyword .FOR then expectWord "UPDATE"
  else if ← skipKeyword .LOCK then
    expectWord "IN"
    expectWord "SHARE"
    expectWord "MODE"

/-- One more of the clauses `LIMIT` and `OFFSET`; each says its own part of the limit, the last one
of its kind winning. -/
def limitRound (limit : Option Limit) : Scan (Round (Option Limit) (Option Limit)) := do
  if ← skipKeyword .LIMIT then
    let rowCount ←
      if ← skipKeyword .ALL then pure none else some <$> limitValue
    return .next (some { limit.getD {} with rowCount })
  else if ← skipKeyword .OFFSET then
    let offset ← limitValue
    let _ ← skipAnyKeyword [.ROW, .ROWS]
    return .next (some { limit.getD {} with offset := some offset })
  else return .done limit

/-- Reads the clauses `LIMIT` and `OFFSET` that stand here. -/
def limitClauses : Scan (Option Limit) :=
  Step.rounding limitRound none

end Scan

namespace AnalysisStep

/-- Records a row limit, if there is one. -/
def setLimit (limit : Option Limit) : AnalysisStep Unit :=
  match limit with
  | some limit => change fun statement => { statement with limit := some limit }
  | none => pure ()

/-- Reads the clauses that the dialect allows behind `ORDER BY`. -/
def trailingClauses (dialect : Dialect) : AnalysisStep Unit := do
  match dialect.trailing with
  | .none => pure ()
  | .limitAndLocking =>
    setLimit (← Scan.limitClause)
    Scan.lockingRead
  | .limitAndOffset => setLimit (← Scan.limitClauses)

end AnalysisStep

end SelectRouting
