import SelectRouting.Analysis.State
import SelectRouting.Dialect
import SelectRouting.Scan.Alias

/-!
# The projection list

The items between `SELECT` and the clause that follows. An item is all columns, a call of an
aggregate function, or an expression of any form, which is not read but passed up to the end of the
item. The tables are not known yet, so every name with a point behind it is taken for one that may
be a table.
-/

namespace SelectRouting.AnalysisStep
open Scan

/-- The keywords that end an item outside parentheses. -/
def closingKeywords : List Keyword :=
  [.AS, .FROM, .WHERE, .GROUP, .HAVING, .ORDER, .LIMIT, .UNION, .EXCEPT, .INTERSECT, .MINUS, .FOR,
    .LOCK]

/-- The keywords that may begin an item, besides those that are columns. -/
def openingKeywords : List Keyword :=
  [.CASE, .NOT, .NULL, .TRUE, .FALSE, .EXISTS, .LEFT, .RIGHT, .COUNT, .SUM, .AVG, .MIN, .MAX]

/-- The cursor stands behind the expression of an item, at a token that ends the item or introduces
its alias. -/
def atTerminator (cursor : Cursor) : Bool :=
  match cursor.kind with
  | .symbol .comma | .symbol .semicolon | .endOfInput => true
  | .keyword word => closingKeywords.contains word
  | _ => false

/-- Nothing but an alias can follow in the item. -/
def atItemEnd (cursor : Cursor) : Bool :=
  match cursor.kind with
  | .identifier _ | .string _ => true
  | _ => atTerminator cursor

/-- A name behind a token of this kind reads as an alias. -/
def aliasMayFollow : TokenKind → Bool
  | .integer _ | .float _ | .string _ | .blob _ | .identifier _ => true
  | .symbol .rightParen => true
  | .keyword .END | .keyword .NULL | .keyword .TRUE | .keyword .FALSE => true
  | .keyword word => word.isNonReserved
  | _ => false

/-- How far an expression in the projection list has been passed. -/
structure PlainItem where
  /-- The parentheses that are open. -/
  depth : Nat := 0
  /-- The end of the last token. -/
  stop : Nat
  /-- A name that follows reads as an alias. -/
  afterValue : Bool
  /-- The last token, when it reads as an alias, and the end of the expression before it. -/
  aliasName : Option (Token × Nat) := none

/-- The parentheses that are open behind the current token, of which `depth` were open before it. A
subquery is rejected. -/
def depthBehind (depth : Nat) : Scan Nat := do
  let cursor ← get
  match cursor.kind with
  | .symbol .leftParen =>
    if cursor.opensSubquery then throw (.subquery cursor.current.span)
    return depth + 1
  | .symbol .rightParen =>
    if depth == 0 then fail .projectionItem
    return depth - 1
  | .keyword .EXISTS => throw (.subquery cursor.current.span)
  | .endOfInput => fail .closingParen
  | _ => return depth

/-- The item behind the token, when `depth` parentheses are open there. A name or a string outside
parentheses that follows a value reads as an alias as long as nothing else follows. -/
def PlainItem.pass (item : PlainItem) (token : Token) (depth : Nat) : PlainItem :=
  if depth == 0 then
    let aliasName :=
      match token.kind with
      | .identifier _ | .string _ => if item.afterValue then some (token, item.stop) else none
      | _ => none
    { depth, aliasName, stop := token.span.stop, afterValue := aliasMayFollow token.kind }
  else { item with depth, stop := token.span.stop }

/-- One token of an expression. A name with a point behind it may be a table. -/
def plainItemRound (item : PlainItem) : AnalysisStep (Round PlainItem PlainItem) := do
  if item.depth == 0 && (← look atTerminator) then return .done item
  let token ← look (·.current)
  let depth ← depthBehind item.depth
  if token.kind == .symbol .question then
    modifyThe Analysis fun state => { state with cursor := state.cursor.countParameter }
  advance
  match token.kind with
  | .identifier _ =>
    if ← look (·.at? (.symbol .dot)) then addEdit (.tableName token.start token.lexeme)
  | _ => pure ()
  return .next (item.pass token depth)

/-- Reads an expression that began at `start`, and its alias. What was passed since `start` ended
with a value when `afterValue`. -/
def plainItem (start : Nat) (afterValue : Bool) : AnalysisStep Item := do
  let behind ← look (·.previous.stop)
  let item ← Step.rounding plainItemRound { stop := max behind start, afterValue }
  let (aliasName, stop) ←
    match item.aliasName with
    | some (token, stop) => pure (some (Text.stripQuotes token.lexeme), stop)
    | none => do pure (← aliasName, item.stop)
  if stop ≤ start then fail .projectionItem
  return .plain (Text.stripQuotes (← look (·.source ⟨start, stop⟩))) aliasName

/-- The aggregate function of which a call begins at the cursor. -/
def aggregateAt? (cursor : Cursor) : Option AggregateFunction :=
  if (cursor.peek 1).kind.sameShape (.symbol .leftParen) then
    cursor.kind.keyword?.bind AggregateFunction.ofKeyword?
  else none

/-- An expression can begin at the token. -/
def startsItem : TokenKind → Bool
  | .keyword word => word.isNonReserved || openingKeywords.contains word
  | .symbol .comma | .symbol .semicolon | .symbol .rightParen | .endOfInput => false
  | _ => true

/-- Reads one item, the one at `position`. -/
def item (dialect : Dialect) (position : Nat) : AnalysisStep Item := do
  if let some word := dialect.itemWord then
    let _ ← skipWhen (·.atWord? word)
  if ← skipWhen fun cursor =>
      cursor.at? (.symbol .star) || Text.stripQuotes cursor.lexeme == "*" then
    return .star (← aliasName)
  let cursor ← look id
  match aggregateAt? cursor with
  | some function =>
    advance
    let argument ← group
    if ← look atItemEnd then
      return .aggregation { function, argument, aliasName := ← aliasName, position }
    else plainItem cursor.start true
  | none =>
    if startsItem cursor.kind then plainItem cursor.start false else fail .projectionItem

/-- Reads the item at `position` and adds it to the list. -/
def itemRound (dialect : Dialect) (position : Nat) : AnalysisStep (Round Nat Unit) := do
  let item ← item dialect position
  change fun statement =>
    { statement with
      items := statement.items ++ [item]
      containsStar := statement.containsStar || item.isStar }
  return if ← skipSymbol .comma then .next (position + 1) else .done ()

/-- Reads the projection list and notes where it ends. -/
def projection (dialect : Dialect) : AnalysisStep Unit := do
  Step.rounding (itemRound dialect) 1
  let stop ← look (·.start)
  change fun statement => { statement with projectionEnd := stop }

end SelectRouting.AnalysisStep
