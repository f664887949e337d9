import SelectRouting.Step

/-!
# Join operators

What stands between two tables of a `FROM` clause.
-/

namespace SelectRouting.Scan

/-- Passes the words that announce a join, and says whether there were any. -/
def joinAnnouncement : Scan Bool := do
  if ← skipKeyword .NATURAL then
    if ← skipAnyKeyword [.LEFT, .RIGHT] then
      let _ ← skipKeyword .OUTER
    return true
  else if ← skipAnyKeyword [.LEFT, .RIGHT, .FULL] then
    let _ ← skipKeyword .OUTER
    return true
  else skipAnyKeyword [.INNER, .CROSS]

/-- Passes a join operator, if one begins here, and says whether it did: the comma, `JOIN`,
`STRAIGHT_JOIN`, `INNER JOIN`, `CROSS JOIN`, the outer joins and the natural joins. The word `JOIN`
is required behind a word that announces it. -/
def join : Scan Bool := do
  if ← skipSymbol .comma then return true
  else if ← skipAnyKeyword [.JOIN, .STRAIGHT_JOIN] then return true
  else if ← joinAnnouncement then
    expectKeyword .JOIN
    return true
  else return false

end SelectRouting.Scan
