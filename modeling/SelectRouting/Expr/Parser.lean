import SelectRouting.Expr
import SelectRouting.Expr.Operator
import SelectRouting.Scan.Group

/-!
# Reading expressions

An expression is read by the binding powers of its operators. The answer is its shape; the names
that qualify a column anywhere in it are collected on the way, so that the tables among them can be
found later.

The readers of the parts of an expression take the reader of nested expressions as an argument. It
is tied to them at the end, one level of nesting at a time: a nested expression begins behind at
least one token of the expression around it, so the tokens that are left bound the depth.
-/

namespace SelectRouting

/-- The state of a reader of expressions: the cursor, and the qualifiers met so far in the order of
the text. -/
structure ExprState where
  cursor : Cursor
  qualifiers : List Name := []

instance : HasCursor ExprState where
  cursor := ExprState.cursor
  setCursor cursor state := { state with cursor }

/-- A step of a reader of expressions. -/
abbrev ExprStep := Step ExprState

namespace ExprStep
open Scan

/-- Records the owner of a column. -/
def qualify (owner : Name) : ExprStep Unit :=
  modifyThe ExprState fun state => { state with qualifiers := state.qualifiers ++ [owner] }

/-- The shape of an expression that began at `start` and ends with the token last passed. -/
def spanningFrom (start : Nat) : ExprStep Expr :=
  look fun cursor => .other ⟨start, cursor.previous.stop⟩

/-- Passes the current token and answers it as a name. -/
def takeName : ExprStep Name := do
  let token ← look (·.current)
  advance
  return .ofToken token

/-- One token of the arguments of a function, with `depth` parentheses open before it. -/
def argumentsRound (depth : Nat) : ExprStep (Round Nat Unit) := do
  let cursor ← look id
  match cursor.kind with
  | .symbol .leftParen =>
    if cursor.opensSubquery then throw (.subquery cursor.current.span)
    advance
    return .next (depth + 1)
  | .symbol .rightParen =>
    advance
    return if depth == 1 then .done () else .next (depth - 1)
  | .symbol .question =>
    let _ ← parameter
    return .next depth
  | .identifier _ =>
    let name ← takeName
    if ← look (·.at? (.symbol .dot)) then qualify name
    return .next depth
  | .endOfInput => fail .closingParen
  | _ =>
    advance
    return .next depth

/-- Passes the arguments of a function, parentheses included. They are passed token by token, since
functions such as `CAST` have a grammar of their own. -/
def arguments : ExprStep Unit :=
  Step.rounding argumentsRound 0

/-- One more part of a dotted name whose last part so far is `name`. -/
def nameRound (start : Nat) : Option Name × Name → ExprStep (Round (Option Name × Name) Expr)
  | (owner, name) => do
    if ← skipSymbol .dot then
      if ← skipSymbol .star then
        qualify name
        return .done (← spanningFrom start)
      if ← look (·.atSymbolOrEnd) then fail .columnName
      return .next (some name, ← takeName)
    else
      match owner with
      | some owner =>
        qualify owner
        return .done (.property owner name)
      | none => return .done (.identifier name)

/-- Reads a column, a column with its owner, all columns of an owner, or a function call. -/
def name : ExprStep Expr := do
  let start ← look (·.start)
  let first ← takeName
  if ← look (·.at? (.symbol .leftParen)) then
    arguments
    spanningFrom start
  else
    Step.rounding (nameRound start) (none, first)

/-- Passes a named parameter or a session variable. -/
def parameterName : ExprStep Unit := do
  advance
  let _ ← skipSymbol .atSign
  if ← look (·.atSymbolOrEnd) then fail .name
  advance

/-- Passes a cast: the double colon, the name of a type and its arguments. -/
def cast : ExprStep Unit := do
  expectSymbol .doubleColon
  if ← look (·.atSymbolOrEnd) then fail .typeName
  advance
  let _ ← group

section Nested
variable (nested : Nat → ExprStep Expr)

/-- Passes a list of expressions in parentheses, which may be empty and is no subquery. -/
def parenthesized : ExprStep Unit := do
  let opening ← look (·.current)
  expectSymbol .leftParen
  if ← look (·.atKeyword? [.SELECT]) then throw (.subquery opening.span)
  unless ← skipSymbol .rightParen do
    Step.whileTrue do
      let _ ← nested 0
      skipSymbol .comma
    expectSymbol .rightParen

/-- Passes a conditional expression. -/
def conditional : ExprStep Unit := do
  expectKeyword .CASE
  unless ← look (·.atKeyword? [.WHEN]) do
    let _ ← nested 0
  unless ← look (·.atKeyword? [.WHEN]) do fail (.keyword .WHEN)
  Step.whileTrue do
    if ← skipKeyword .WHEN then
      let _ ← nested 0
      expectKeyword .THEN
      let _ ← nested 0
      return true
    else return false
  if ← skipKeyword .ELSE then
    let _ ← nested 0
  expectKeyword .END

/-- The keyword names a function when a parenthesis follows. -/
def isFunctionName : Keyword → Bool
  | .COUNT | .SUM | .AVG | .MIN | .MAX | .LEFT | .RIGHT => true
  | _ => false

/-- The keyword is a column when it stands alone. -/
def isColumnName : Keyword → Bool
  | .COUNT | .SUM | .AVG | .MIN | .MAX => true
  | word => word.isNonReserved

/-- Reads an operand without the operators around it. -/
def primary : ExprStep Expr := do
  let cursor ← look id
  let token := cursor.current
  match token.kind with
  | .integer value =>
    advance
    return .number value
  | .float _ | .string _ | .blob _ | .keyword .NULL | .keyword .TRUE | .keyword .FALSE =>
    advance
    return .other token.span
  | .symbol .question =>
    let _ ← parameter
    return .other token.span
  | .symbol .colon | .symbol .atSign =>
    parameterName
    spanningFrom token.start
  | .symbol .leftParen =>
    parenthesized nested
    spanningFrom token.start
  | .keyword .EXISTS => throw (.subquery token.span)
  | .keyword .CASE =>
    conditional nested
    spanningFrom token.start
  | .identifier _ => name
  | .keyword word =>
    if isFunctionName word && (cursor.peek 1).kind == .symbol .leftParen then
      advance
      arguments
      spanningFrom token.start
    else if isColumnName word then name
    else fail .expression
  | _ => fail .expression

/-- Reads an operand with the operators in front of it. -/
def operand : ExprStep Expr := do
  let start ← look (·.start)
  match Expr.unaryPower? (← look (·.kind)) with
  | some power =>
    advance
    let _ ← nested power
    spanningFrom start
  | none => primary nested

/-- Passes an operator behind its left operand, and what belongs to it, up to the end of its right
operand, which binds with `power`. -/
def operation (power : Nat) : ExprStep Unit := do
  let _ ← skipKeyword .NOT
  match ← look (·.kind) with
  | .keyword .IS =>
    advance
    let _ ← skipKeyword .NOT
    unless ← skipAnyKeyword [.NULL, .TRUE, .FALSE] do fail .nullTest
  | .keyword .IN =>
    advance
    unless ← look (·.at? (.symbol .leftParen)) do fail .openingParen
    parenthesized nested
  | .keyword .BETWEEN =>
    advance
    let _ ← nested power
    expectKeyword .AND
    let _ ← nested power
  | .keyword .LIKE =>
    advance
    let _ ← nested power
    if ← look (·.atWord? "ESCAPE") then
      advance
      let _ ← nested power
  | _ =>
    advance
    let _ ← nested power

/-- The cursor stands at a `NOT` that belongs to no operator behind it. -/
def atLoneNot (cursor : Cursor) : Bool :=
  cursor.atKeyword? [.NOT] &&
    match (cursor.peek 1).kind with
    | .keyword .IN | .keyword .BETWEEN | .keyword .LIKE => false
    | _ => true

/-- One more operator of an expression that began at `start` and has the shape `left` so far, when
the operator binds with `power` or more. -/
def expressionRound (power start : Nat) (left : Expr) : ExprStep (Round Expr Expr) := do
  let cursor ← look id
  match Expr.castPower? cursor.kind, Expr.binaryPower? cursor.kind with
  | some castPower, _ =>
    if castPower < power then return .done left
    cast
    return .next (← spanningFrom start)
  | none, some leftPower =>
    if leftPower < power || atLoneNot cursor then return .done left
    operation nested (leftPower + 1)
    return .next (← spanningFrom start)
  | none, none => return .done left

/-- Reads an operand and all operators behind it that bind with `power` or more. -/
def expressionWith (power : Nat) : ExprStep Expr := do
  let start ← look (·.start)
  let first ← operand nested
  Step.rounding (expressionRound nested power start) first

end Nested

/-- Reads an expression whose operators bind with `power` or more, and in which expressions are
nested less than `depth` levels deep. -/
def expressionWithin : (depth power : Nat) → ExprStep Expr
  | 0, _ => fail .expression
  | depth + 1, power => expressionWith (expressionWithin depth) power

/-- Reads an expression whose operators bind with `power` or more. -/
def expressionOf (power : Nat) : ExprStep Expr := do
  expressionWithin ((← look (·.rest)).length + 1) power

/-- Reads a whole expression. -/
def expression : ExprStep Expr :=
  expressionOf 0

/-- Reads an expression up to a comparison, such as one side of an equation. -/
def comparand : ExprStep Expr :=
  expressionOf (Expr.comparisonPower + 1)

end ExprStep

end SelectRouting
