import SelectRouting.Step

/-!
# Aliases

The name given to a projection item or a table: behind `AS`, or as a name or a string that follows
directly.
-/

namespace SelectRouting.Scan

/-- Passes an alias, if one stands here, and answers it without quotes. Behind `AS` every word or
literal is an alias, also a keyword; where `AS` is followed by none, only `AS` is passed. -/
def aliasName : Scan (Option String) := do
  let isAlias ←
    if ← skipKeyword .AS then look fun cursor => !cursor.atSymbolOrEnd
    else
      look fun cursor =>
        match cursor.kind with
        | .identifier _ | .string _ => true
        | _ => false
  if isAlias then
    let written ← look (·.lexeme)
    advance
    return some (Text.stripQuotes written)
  else return none

end SelectRouting.Scan
