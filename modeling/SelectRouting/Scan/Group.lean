import SelectRouting.Step

/-!
# Placeholders and parenthesized groups

A group is passed as a whole and quoted back as it is written; the placeholders in it count.
-/

namespace SelectRouting.Scan

/-- Passes a placeholder, which is required, and answers its index from zero. -/
def parameter : Scan Nat := do
  expectSymbol .question
  let index ← look (·.parameters)
  modify Cursor.countParameter
  return index

/-- One token of a group in which `depth` parentheses are open before the token. -/
def groupRound (depth : Nat) : Scan (Round Nat Unit) := do
  let depth ←
    match ← look (·.kind) with
    | .symbol .leftParen => pure (depth + 1)
    | .symbol .rightParen => pure (depth - 1)
    | .symbol .question => do
      modify Cursor.countParameter
      pure depth
    | .endOfInput => fail .closingParen
    | _ => pure depth
  advance
  return if depth == 0 then .done () else .next depth

/-- Passes a group up to the parenthesis that closes it and answers its text with both parentheses.
Passes nothing where no group begins. -/
def group : Scan String := do
  if ← look (·.at? (.symbol .leftParen)) then
    let start ← look (·.start)
    Step.rounding groupRound 0
    look fun cursor => cursor.source ⟨start, cursor.previous.stop⟩
  else return ""

end SelectRouting.Scan
